/-
  PluginHost.Proofs.System.BulkKilling

  Killing everything, host by host and name by name.  Two things are mixed up in it:
  switches are triggered, and entries are taken out.  They have nothing to do with one
  another, so that the whole is the same as to trigger the switches of all entries first
  (`triggerEach`) and to empty the tables then (`killHosts_eq`).

  Hosts may share a table.  Its entries count where the first of these hosts stands, since
  the others find it empty (`entriesFrom`).
-/
import PluginHost.Proofs.Process.OneShot
import PluginHost.Proofs.System.Children
import PluginHost.Proofs.System.Killing
import PluginHost.Proofs.Text.Order
import PluginHost.Registry

namespace PluginHost

namespace System

variable {s : System} {i : Nat}

/-! ## Switches one after another -/

/-- Triggers the switches of processes, one after another. -/
def triggerEach (s : System) : List PluginProcess → List (Except SignalFault Bool) × System
  | [] => ([], s)
  | p :: ps =>
    let (answer, s) := s.triggerProcess p
    let (answers, s) := s.triggerEach ps
    (answer :: answers, s)

theorem triggerEach_cons (s : System) (p : PluginProcess) (ps : List PluginProcess) :
    s.triggerEach (p :: ps) = ((s.triggerProcess p).1 :: ((s.triggerProcess p).2.triggerEach ps).1,
      ((s.triggerProcess p).2.triggerEach ps).2) :=
  rfl

theorem triggerEach_append (s : System) (ps qs : List PluginProcess) :
    s.triggerEach (ps ++ qs) = ((s.triggerEach ps).1 ++ ((s.triggerEach ps).2.triggerEach qs).1,
      ((s.triggerEach ps).2.triggerEach qs).2) := by
  induction ps generalizing s with
  | nil => rfl
  | cons p ps ih =>
    rw [List.cons_append, triggerEach_cons, ih, triggerEach_cons]
    rfl

theorem length_triggerEach (s : System) (ps : List PluginProcess) :
    (s.triggerEach ps).1.length = ps.length := by
  induction ps generalizing s with
  | nil => rfl
  | cons p ps ih => rw [triggerEach_cons, List.length_cons, List.length_cons, ih]

/-- The switches of all of them are spent afterwards, and no other ones. -/
theorem triggerEach_spends (s : System) (ps : List PluginProcess) :
    Spends (fun id => ∃ p ∈ ps, p.switch = some id) s (s.triggerEach ps).2 := by
  induction ps generalizing s with
  | nil =>
    refine ⟨rfl, rfl, fun id => ⟨.inl, ?_⟩, rfl⟩
    rintro (h | ⟨⟨p, hp, -⟩, -⟩)
    · exact h
    · cases hp
  | cons p ps ih =>
    have hfirst := triggerProcess_spends s p
    have hrest := ih (s.triggerProcess p).2
    refine ⟨hrest.pools.trans hfirst.pools, hrest.switches.trans hfirst.switches, fun id => ?_,
      hrest.journal.trans hfirst.journal⟩
    rw [triggerEach_cons, hrest.spent, hfirst.spent, hfirst.switches]
    simp only [List.mem_cons, exists_eq_or_imp]
    rw [or_and_right, or_assoc]

/-- The answers come one by one, each in the state that the triggers before it have left. -/
theorem getElem?_triggerEach_append (s : System) (ps qs : List PluginProcess)
    (p : PluginProcess) :
    (s.triggerEach (ps ++ p :: qs)).1[ps.length]?
      = some ((s.triggerEach ps).2.triggerProcess p).1 := by
  rw [triggerEach_append, triggerEach_cons,
    List.getElem?_append_right (Nat.le_of_eq (length_triggerEach s ps)), length_triggerEach,
    Nat.sub_self]
  rfl

/-- The switch of a process works yet, and the process cannot be told by it: its number is
    none that a process can have, or no signal may be sent to it. -/
def CannotTell (s : System) (p : PluginProcess) (fault : SignalFault) : Prop :=
  ∃ id k pid, p.switch = some id ∧ s.switch? id = some k ∧ k.IsArmed ∧ k.process = some pid ∧
    if KillSwitch.IsValid pid then s.deliver pid = .failed fault else fault = .invalid

theorem trigger_answer {id : Nat} {k : KillSwitch} (h : s.switch? id = some k) :
    (s.trigger id).1 = (k.trigger s.deliver).answer := by
  unfold trigger
  rw [h]
  dsimp only
  split <;> rfl

/-- A process without a switch is not told, and so is one whose switch does not work any
    more: neither is a failure. -/
theorem triggerProcess_eq_error_iff {p : PluginProcess} {fault : SignalFault} :
    (s.triggerProcess p).1 = .error fault ↔ CannotTell s p fault := by
  unfold triggerProcess CannotTell
  cases p.switch with
  | none => simp
  | some id =>
    cases hk : s.switch? id with
    | none => simp [trigger, hk]
    | some k => simp [trigger_answer hk, hk, KillSwitch.answer_trigger_eq_error_iff]

/-! ## Pools have no part in it -/

theorem dropReceivers_updatePool (cs : List Child) (s : System) (i : Nat) (f : Pool → Pool) :
    cs.foldl (fun s c => s.updateSwitch c.switch KillSwitch.dropReceiver) (s.updatePool i f)
      = (cs.foldl (fun s c => s.updateSwitch c.switch KillSwitch.dropReceiver) s).updatePool i
          f := by
  induction cs generalizing s with
  | nil => rfl
  | cons c cs ih =>
    rw [List.foldl_cons, List.foldl_cons, ← ih]
    rfl

theorem releaseWatchers_updatePool (s : System) (i : Nat) (f : Pool → Pool) :
    (s.updatePool i f).releaseWatchers = s.releaseWatchers.updatePool i f :=
  dropReceivers_updatePool _ s i f

/-- What becomes of a trigger does not depend on what stands in a table. -/
theorem trigger_updatePool (s : System) (id i : Nat) (f : Pool → Pool) :
    (s.updatePool i f).trigger id = ((s.trigger id).1, (s.trigger id).2.updatePool i f) := by
  have hswitch : (s.updatePool i f).switch? id = s.switch? id := rfl
  have hdeliver : (s.updatePool i f).deliver = s.deliver := rfl
  unfold trigger
  rw [hswitch, hdeliver]
  cases s.switch? id with
  | none => rfl
  | some k =>
    cases hsignalled : (k.trigger s.deliver).signalled with
    | none =>
      simp only [hsignalled]
      rfl
    | some pid =>
      simp only [hsignalled]
      rw [← releaseWatchers_updatePool]
      rfl

theorem triggerProcess_updatePool (s : System) (p : PluginProcess) (i : Nat) (f : Pool → Pool) :
    (s.updatePool i f).triggerProcess p
      = ((s.triggerProcess p).1, (s.triggerProcess p).2.updatePool i f) := by
  unfold triggerProcess
  split
  · exact trigger_updatePool s _ i f
  · rfl

theorem triggerEach_updatePool (s : System) (ps : List PluginProcess) (i : Nat) (f : Pool → Pool) :
    (s.updatePool i f).triggerEach ps
      = ((s.triggerEach ps).1, (s.triggerEach ps).2.updatePool i f) := by
  induction ps generalizing s with
  | nil => rfl
  | cons p ps ih =>
    rw [triggerEach_cons, triggerProcess_updatePool, triggerEach_cons, ih]

/-! ## One table -/

/-- The error of a process that could not be told to stop. -/
def failure? : String × Except SignalFault Bool → Option Error
  | (_, .ok _) => none
  | (name, .error fault) => some (killError name fault)

/-- A process is killed by its switch, and its entry goes whatever the switch answers. -/
theorem kill_eq {name : String} {p : PluginProcess} (h : (s.table i).get? name = some p) :
    s.kill i name = ((match failure? (name, (s.triggerProcess p).1) with
        | none => .ok ()
        | some e => .error e), (s.triggerProcess p).2.remove i name) := by
  rw [kill, process_eq_ok_iff.2 h]
  cases hanswer : (s.triggerProcess p).1 <;> simp [hanswer, failure?]

theorem killEach_cons_eq {name : String} {p : PluginProcess} (names : List String)
    (h : (s.table i).get? name = some p) :
    s.killEach i (name :: names)
      = ((failure? (name, (s.triggerProcess p).1)).toList
          ++ (((s.triggerProcess p).2.remove i name).killEach i names).1,
        (((s.triggerProcess p).2.remove i name).killEach i names).2) := by
  rw [killEach, kill_eq h]
  cases failure? (name, (s.triggerProcess p).1) <;> rfl

/-- Entries are killed one after another: as many switches are triggered, and nothing else
    is done but to take the entries out. -/
theorem killEach_eq {es : List (String × PluginProcess)} (hnodup : (es.map (·.1)).Nodup)
    (hget : ∀ e ∈ es, (s.table i).get? e.1 = some e.2) :
    s.killEach i (es.map (·.1))
      = (((es.map (·.1)).zip (s.triggerEach (es.map (·.2))).1).filterMap failure?,
        (es.map (·.1)).foldl (·.remove i ·) (s.triggerEach (es.map (·.2))).2) := by
  induction es generalizing s with
  | nil => rfl
  | cons e es ih =>
    obtain ⟨hnew, hnodup⟩ := List.nodup_cons.1 hnodup
    -- The entries that are left are still there.
    have hrest : ∀ e' ∈ es, (((s.triggerProcess e.2).2.remove i e.1).table i).get? e'.1
        = some e'.2 := by
      intro e' he'
      have hne : e'.1 ≠ e.1 := fun heq => hnew (List.mem_map.2 ⟨e', he', heq⟩)
      rw [get?_table_remove, if_neg hne, (triggerProcess_spends s e.2).table]
      exact hget e' (List.mem_cons_of_mem _ he')
    have hih := ih hnodup hrest
    rw [remove, triggerEach_updatePool] at hih
    rw [List.map_cons, List.map_cons, killEach_cons_eq _ (hget e List.mem_cons_self), remove, hih,
      triggerEach_cons, List.zip_cons_cons, List.foldl_cons]
    cases hfailure : failure? (e.1, (s.triggerProcess e.2).1) with
    | none =>
      rw [List.filterMap_cons_none hfailure]
      rfl
    | some e =>
      rw [List.filterMap_cons_some hfailure]
      rfl

/-- To take all entries out and then empty the table is to empty the table. -/
theorem removeAll_foldl_remove (names : List String) (s : System) (i : Nat) :
    (names.foldl (·.remove i ·) s).removeAll i = s.removeAll i := by
  induction names generalizing s with
  | nil => rfl
  | cons name names ih =>
    rw [List.foldl_cons, ih]
    simp only [removeAll, remove, updatePool, List.modify_modify_eq]
    rfl

theorem get?_of_mem_entries {t : ProcessTable} {e : String × PluginProcess} (h : e ∈ t.entries) :
    t.get? e.1 = some e.2 :=
  NameMap.get?_eq_some_iff.2 h

/-- All processes of a pool are killed, in the order of their names. -/
theorem killAll_eq (s : System) (i : Nat) :
    s.killAll i = (((s.table i).names.zip
        (s.triggerEach ((s.table i).entries.map (·.2))).1).filterMap failure?,
      (s.triggerEach ((s.table i).entries.map (·.2))).2.removeAll i) := by
  have hentries : ∀ e ∈ (s.table i).entries, (s.table i).get? e.1 = some e.2 :=
    fun _ => get?_of_mem_entries
  rw [killAll, NameMap.names, killEach_eq (NameMap.nodup_names (s.table i)) hentries]
  simp only [removeAll_foldl_remove]

/-! ## All tables -/

/-- What stands in the table of a pool. -/
structure Entry where
  pool : Nat
  name : String
  process : PluginProcess

/-- The entries of a table. -/
def entriesOf (s : System) (i : Nat) : List Entry :=
  (s.table i).entries.map fun e => ⟨i, e.1, e.2⟩

/-- The entries of pools in order.  Those that were seen before are left out. -/
def entriesFrom (s : System) (seen : List Nat) : List Nat → List Entry
  | [] => []
  | i :: is =>
    if i ∈ seen then s.entriesFrom seen is
    else s.entriesOf i ++ s.entriesFrom (i :: seen) is

/-- The errors of entries that could not be told to stop. -/
def failures (es : List Entry) (answers : List (Except SignalFault Bool)) : List Error :=
  ((es.map (·.name)).zip answers).filterMap failure?

theorem failures_append {es es' : List Entry} {answers answers' : List (Except SignalFault Bool)}
    (h : answers.length = es.length) :
    failures (es ++ es') (answers ++ answers') = failures es answers ++ failures es' answers' := by
  rw [failures, List.map_append, List.zip_append (by rw [List.length_map, h]),
    List.filterMap_append]
  rfl

theorem table_removeAll (s : System) (i j : Nat) :
    (s.removeAll i).table j = if i = j then .empty else s.table j := by
  split
  · rename_i heq
    subst heq
    exact NameMap.ext_get? fun n => (get?_table_removeAll s i n).trans (NameMap.get?_empty n).symm
  · rename_i hne
    exact table_removeAll_of_ne hne

theorem table_triggerEach (s : System) (ps : List PluginProcess) (j : Nat) :
    (s.triggerEach ps).2.table j = s.table j := by
  exact (triggerEach_spends s ps).table j

theorem names_zip_entriesOf (s : System) (i : Nat) (answers : List (Except SignalFault Bool)) :
    failures (s.entriesOf i) answers = ((s.table i).names.zip answers).filterMap failure? := by
  rw [failures, entriesOf, List.map_map]
  rfl

theorem processes_entriesOf (s : System) (i : Nat) :
    (s.entriesOf i).map (·.process) = (s.table i).entries.map (·.2) := by
  rw [entriesOf, List.map_map]
  rfl

/-- Where nothing is left, nothing is taken out. -/
theorem table_removeAll_of_empty {i : Nat} (h : s.table i = .empty) (j : Nat) :
    (s.removeAll i).table j = s.table j := by
  rw [table_removeAll]
  split
  · rename_i heq
    rw [← heq, h]
  · rfl

/-- All hosts are killed, of which some have tables that were emptied before. -/
theorem killHosts_from {hs : List Host} {seen : List Nat} {c : System}
    (hempty : ∀ j ∈ seen, c.table j = .empty) (hsame : ∀ j, j ∉ seen → c.table j = s.table j) :
    Registry.killHosts c hs
      = (failures (s.entriesFrom seen (hs.map (·.pool)))
          (c.triggerEach ((s.entriesFrom seen (hs.map (·.pool))).map (·.process))).1,
        (hs.map (·.pool)).foldl removeAll
          (c.triggerEach ((s.entriesFrom seen (hs.map (·.pool))).map (·.process))).2) := by
  induction hs generalizing seen c with
  | nil => rfl
  | cons h hs ih =>
    have hcons : Registry.killHosts c (h :: hs)
        = ((c.killAll h.pool).1 ++ (Registry.killHosts (c.killAll h.pool).2 hs).1,
          (Registry.killHosts (c.killAll h.pool).2 hs).2) := rfl
    rw [hcons, killAll_eq, List.map_cons, entriesFrom, List.foldl_cons]
    by_cases hseen : h.pool ∈ seen
    · -- The table was emptied on behalf of a host before, and there is nothing to do.
      have hnone : c.table h.pool = .empty := hempty _ hseen
      have hkept := table_removeAll_of_empty hnone
      have hempty' : ∀ j ∈ seen, (c.removeAll h.pool).table j = .empty :=
        fun j hj => (hkept j).trans (hempty j hj)
      have hrest := ih hempty' fun j hj => (hkept j).trans (hsame j hj)
      have hsystem : (c.triggerEach ((c.table h.pool).entries.map (·.2))).2 = c := by
        rw [hnone]
        rfl
      rw [if_pos hseen, hsystem, hrest, removeAll, triggerEach_updatePool, hnone]
      rfl
    · have hthis : c.table h.pool = s.table h.pool := hsame _ hseen
      have hps : (c.table h.pool).entries.map (·.2) = (s.entriesOf h.pool).map (·.process) := by
        rw [processes_entriesOf, hthis]
      have herrors (answers : List (Except SignalFault Bool)) :
          ((c.table h.pool).names.zip answers).filterMap failure?
            = failures (s.entriesOf h.pool) answers := by
        rw [names_zip_entriesOf, hthis]
      generalize hc : (c.triggerEach ((s.entriesOf h.pool).map (·.process))) = told
      have htables (j : Nat) : told.2.table j = c.table j := by
        rw [← hc, table_triggerEach]
      have hempty' : ∀ j ∈ h.pool :: seen, (told.2.removeAll h.pool).table j = .empty := by
        intro j hj
        rw [table_removeAll]
        split
        · rfl
        · rename_i hne
          rw [htables]
          exact hempty j ((List.mem_cons.1 hj).resolve_left (Ne.symm hne))
      have hsame' : ∀ j, j ∉ h.pool :: seen → (told.2.removeAll h.pool).table j = s.table j := by
        intro j hj
        obtain ⟨hne, hnot⟩ := not_or.1 fun hor => hj (List.mem_cons.2 hor)
        rw [table_removeAll, if_neg (Ne.symm hne), htables]
        exact hsame j hnot
      have hlength : told.1.length = (s.entriesOf h.pool).length := by
        rw [← hc, length_triggerEach, List.length_map]
      rw [if_neg hseen, hps, hc, herrors, ih hempty' hsame', removeAll, triggerEach_updatePool,
        List.map_append, triggerEach_append, hc, failures_append hlength]
      rfl

/-- To kill all hosts is to trigger the switches of all entries, one after another, and to
    empty all tables. -/
theorem killHosts_eq (s : System) (hs : List Host) :
    Registry.killHosts s hs
      = (failures (s.entriesFrom [] (hs.map (·.pool)))
          (s.triggerEach ((s.entriesFrom [] (hs.map (·.pool))).map (·.process))).1,
        (hs.map (·.pool)).foldl removeAll
          (s.triggerEach ((s.entriesFrom [] (hs.map (·.pool))).map (·.process))).2) :=
  killHosts_from (fun _ hj => by cases hj) fun _ _ => rfl

/-! ## The entries -/

variable {seen is : List Nat} {e : Entry}

theorem mem_entriesOf_iff : e ∈ s.entriesOf i ↔
    e.pool = i ∧ (s.table i).get? e.name = some e.process := by
  rw [entriesOf, List.mem_map]
  constructor
  · rintro ⟨⟨name, p⟩, hmem, rfl⟩
    exact ⟨rfl, get?_of_mem_entries hmem⟩
  · rintro ⟨rfl, hget⟩
    exact ⟨(e.name, e.process), NameMap.get?_eq_some_iff.1 hget, rfl⟩

theorem mem_entriesFrom_iff : e ∈ s.entriesFrom seen is ↔
    e.pool ∈ is ∧ e.pool ∉ seen ∧ (s.table e.pool).get? e.name = some e.process := by
  induction is generalizing seen with
  | nil => simp [entriesFrom]
  | cons i is ih =>
    rw [entriesFrom]
    split
    · rename_i hseen
      rw [ih, List.mem_cons]
      constructor
      · rintro ⟨hpool, hnot, hget⟩
        exact ⟨.inr hpool, hnot, hget⟩
      · rintro ⟨hpool, hnot, hget⟩
        refine ⟨hpool.resolve_left fun heq => ?_, hnot, hget⟩
        exact hnot (heq ▸ hseen)
    · rename_i hseen
      rw [List.mem_append, ih, mem_entriesOf_iff, List.mem_cons, List.mem_cons, not_or]
      constructor
      · rintro (⟨rfl, hget⟩ | ⟨hpool, ⟨-, hnot⟩, hget⟩)
        · exact ⟨.inl rfl, hseen, hget⟩
        · exact ⟨.inr hpool, hnot, hget⟩
      · rintro ⟨hpool, hnot, hget⟩
        by_cases heq : e.pool = i
        · exact .inl ⟨heq, heq ▸ hget⟩
        · exact .inr ⟨hpool.resolve_left heq, ⟨heq, hnot⟩, hget⟩

/-- One entry comes before another: its table stands first with an earlier host, or it is
    the same table and its name comes first, byte by byte. -/
def Precedes (is : List Nat) (a b : Entry) : Prop :=
  is.idxOf a.pool < is.idxOf b.pool ∨
    a.pool = b.pool ∧ Utf8.encode a.name < Utf8.encode b.name

theorem pairwise_entriesOf (s : System) (i : Nat) (is : List Nat) :
    (s.entriesOf i).Pairwise (Precedes is) := by
  rw [entriesOf, List.pairwise_map]
  refine (s.table i).sorted.imp fun hlt => .inr ⟨rfl, ?_⟩
  exact Utf8.encode_lt_encode_iff.2 hlt

theorem idxOf_cons_of_ne {j : Nat} (h : i ≠ j) (is : List Nat) :
    (i :: is).idxOf j = is.idxOf j + 1 := by
  rw [List.idxOf_cons, beq_false_of_ne h]
  rfl

theorem pairwise_entriesFrom (s : System) (seen is : List Nat) :
    (s.entriesFrom seen is).Pairwise (Precedes is) := by
  have hlater {a b : Entry} {i : Nat} {is : List Nat} (ha : i ≠ a.pool) (hb : i ≠ b.pool)
      (h : Precedes is a b) : Precedes (i :: is) a b := by
    unfold Precedes at h ⊢
    rw [idxOf_cons_of_ne ha, idxOf_cons_of_ne hb]
    exact h.imp_left Nat.succ_lt_succ
  induction is generalizing seen with
  | nil => exact .nil
  | cons i is ih =>
    rw [entriesFrom]
    split
    · rename_i hseen
      refine (ih seen).imp_of_mem fun {a b} ha hb h => hlater ?_ ?_ h
      · rintro rfl
        exact (mem_entriesFrom_iff.1 ha).2.1 hseen
      · rintro rfl
        exact (mem_entriesFrom_iff.1 hb).2.1 hseen
    · rename_i hseen
      have hne {a : Entry} (ha : a ∈ s.entriesFrom (i :: seen) is) : i ≠ a.pool := by
        rintro rfl
        exact (mem_entriesFrom_iff.1 ha).2.1 List.mem_cons_self
      refine List.pairwise_append.2 ⟨pairwise_entriesOf s i _, ?_, fun a ha b hb => .inl ?_⟩
      · exact (ih (i :: seen)).imp_of_mem fun ha hb h => hlater (hne ha) (hne hb) h
      · obtain ⟨rfl, -⟩ := mem_entriesOf_iff.1 ha
        rw [List.idxOf_cons_self, idxOf_cons_of_ne (hne hb)]
        exact Nat.succ_pos _

/-! ## Single names -/

/-- A trigger leaves other switches alone.  Only the watchers of children that have ended
    go, whoever has ended them. -/
theorem switch?_trigger_of_ne {id j : Nat} (h : id ≠ j) :
    (s.trigger id).2.switch? j = s.switch? j ∨
      ∃ c ∈ (s.trigger id).2.children, c.switch = j ∧ c.isRunning = false ∧
        (s.trigger id).2.switch? j = (s.switch? j).map KillSwitch.dropReceiver := by
  cases hsw : s.switch? id with
  | none =>
    have hsame : s.trigger id = (.ok false, s) := by rw [trigger, hsw]
    rw [hsame]
    exact .inl rfl
  | some k =>
    generalize ht : k.trigger s.deliver = t
    have hother : (s.updateSwitch id fun _ => t.switch).switch? j = s.switch? j := by
      rw [switch?_updateSwitch, if_neg h]
    cases hsignalled : t.signalled with
    | none =>
      have htrigger : (s.trigger id).2 = s.updateSwitch id fun _ => t.switch := by
        rw [trigger, hsw]
        simp only [ht, hsignalled]
      rw [htrigger]
      exact .inl hother
    | some pid =>
      generalize hasked :
        (s.updateSwitch id fun _ => t.switch).updateChild pid (Child.ask s.now) = u
      have htrigger : (s.trigger id).2 = u.releaseWatchers := by
        rw [trigger, hsw, ← hasked]
        simp only [ht, hsignalled]
        rfl
      have hbefore : u.switch? j = s.switch? j := by
        rw [← hasked]
        exact hother
      rw [htrigger, children_releaseWatchers, releaseWatchers, switch?_dropReceivers, hbefore]
      by_cases hended : ∃ c ∈ u.children.filter fun c => !c.isRunning, c.switch = j
      · simp only [if_pos hended]
        obtain ⟨c, hmem, hc⟩ := hended
        obtain ⟨hmem, hrun⟩ := List.mem_filter.1 hmem
        exact .inr ⟨c, hmem, hc, by simpa using hrun, trivial⟩
      · simp only [if_neg hended, Option.map_id']
        exact .inl trivial

/-- What it means to kill the process of one name. -/
structure SingleKill (s : System) (i : Nat) (name : String) : Prop where
  absent : (s.table i).get? name = none → s.kill i name = (.error (.pluginUnknown name), s)
  /-- Its own switch is triggered, and decides on the result. -/
  result : ∀ {p}, (s.table i).get? name = some p →
    (s.kill i name).1 = match (s.triggerProcess p).1 with
      | .ok _ => .ok ()
      | .error fault => .error (killError name fault)
  system : ∀ {p}, (s.table i).get? name = some p →
    (s.kill i name).2 = (s.triggerProcess p).2.remove i name
  fails : ∀ {p}, (s.table i).get? name = some p → ∀ fault,
    (s.triggerProcess p).1 = .error fault ↔ CannotTell s p fault
  /-- The switch does not work any more, and every other one does as it did. -/
  spent : ∀ id, (s.kill i name).2.isSpent id = true ↔ s.isSpent id = true ∨
    ∃ p, (s.table i).get? name = some p ∧ p.switch = some id ∧ id < s.switches.length
  /-- The entry goes for every result, and no other one does. -/
  tables : ∀ j n, ((s.kill i name).2.table j).get? n
    = if i = j ∧ n = name then none else (s.table j).get? n
  /-- No other switch is touched, unless its watcher goes with a child that has ended. -/
  switches : ∀ id, (∀ p, (s.table i).get? name = some p → p.switch ≠ some id) →
    (s.kill i name).2.switch? id = s.switch? id ∨
      ∃ c ∈ (s.kill i name).2.children, c.switch = id ∧ c.isRunning = false ∧
        (s.kill i name).2.switch? id = (s.switch? id).map KillSwitch.dropReceiver

theorem singleKill (s : System) (i : Nat) (name : String) : SingleKill s i name := by
  refine ⟨kill_of_get?_eq_none, fun {p} hp => ?_, kill_of_get?_eq_some,
    fun _ _ => triggerProcess_eq_error_iff, fun id => ?_, fun j n => ?_, fun id hother => ?_⟩
  · have hprocess := process_eq_ok_iff.2 hp
    cases hanswer : (s.triggerProcess p).1 with
    | ok told => simp only [kill, hprocess, hanswer]
    | error fault => simp only [kill, hprocess, hanswer]
  · simp [(kill_kills s i name).spent]
  · have hkills := kill_kills s i name
    by_cases hj : i = j
    · subst hj
      by_cases hn : n = name
      · rw [if_pos ⟨rfl, hn⟩]
        exact hkills.gone n hn
      · rw [if_neg fun hboth => hn hboth.2]
        exact hkills.kept n hn
    · rw [if_neg fun hboth => hj hboth.1, hkills.others j hj]
  · cases hp : (s.table i).get? name with
    | none =>
      rw [kill_of_get?_eq_none hp]
      exact .inl rfl
    | some p =>
      have hne := hother p hp
      rw [kill_of_get?_eq_some hp, triggerProcess]
      cases hid : p.switch with
      | none => exact .inl rfl
      | some id' =>
        rw [hid, ne_eq, Option.some.injEq] at hne
        exact switch?_trigger_of_ne hne

/-! ## All names of all hosts -/

/-- What it means to kill all plugins: `entries` are triggered one after another. -/
structure BulkKill (r : Registry) (s : System) (entries : List Entry) : Prop where
  /-- They are all entries of all hosts. -/
  every : ∀ e, e ∈ entries ↔
    (∃ h ∈ r.hosts, h.pool = e.pool) ∧ (s.table e.pool).get? e.name = some e.process
  once : entries.Nodup
  ordered : entries.Pairwise (Precedes (r.hosts.map (·.pool)))
  /-- There is one error for each of them whose own trigger has failed. -/
  errors : (r.killPlugins s).1
    = failures entries (s.triggerEach (entries.map (·.process))).1
  /-- The trigger of an entry fails just where its switch works yet at its turn, and cannot
      tell its process. -/
  fails : ∀ {before e}, Happens entries before e → ∀ fault,
    (s.triggerEach (entries.map (·.process))).1[before.length]? = some (.error fault)
      ↔ CannotTell (s.triggerEach (before.map (·.process))).2 e.process fault
  /-- No switch of an entry works any more, and every other one does as it did. -/
  spent : ∀ id, (r.killPlugins s).2.isSpent id = true ↔ s.isSpent id = true ∨
    (∃ e ∈ entries, e.process.switch = some id) ∧ id < s.switches.length
  /-- Nothing else is done but to empty the tables. -/
  system : (r.killPlugins s).2
    = (r.hosts.map (·.pool)).foldl removeAll (s.triggerEach (entries.map (·.process))).2
  tables : ∀ i, (r.killPlugins s).2.table i
    = if i ∈ r.hosts.map (·.pool) then .empty else s.table i

theorem table_foldl_removeAll (is : List Nat) (s : System) (j : Nat) :
    (is.foldl removeAll s).table j = if j ∈ is then .empty else s.table j := by
  induction is generalizing s with
  | nil => simp
  | cons i is ih =>
    rw [List.foldl_cons, ih, table_removeAll]
    by_cases hj : j ∈ is
    · rw [if_pos hj, if_pos (List.mem_cons_of_mem _ hj)]
    · by_cases heq : i = j
      · rw [if_neg hj, if_pos heq, if_pos (heq ▸ List.mem_cons_self)]
      · rw [if_neg hj, if_neg heq, if_neg fun hmem => ?_]
        exact ((List.mem_cons.1 hmem).elim (Ne.symm heq) hj)

theorem isSpent_foldl_removeAll (is : List Nat) (s : System) (id : Nat) :
    (is.foldl removeAll s).isSpent id = s.isSpent id := by
  induction is generalizing s with
  | nil => rfl
  | cons i is ih => exact ih (s.removeAll i)

theorem not_precedes_self (is : List Nat) (e : Entry) : ¬ Precedes is e e := by
  rintro (hlt | ⟨-, hlt⟩)
  · exact Nat.lt_irrefl _ hlt
  · exact String.lt_irrefl e.name (Utf8.encode_lt_encode_iff.1 hlt)

/-- Killing everything leaves nothing out.  Whatever stands in the tables, and however the
    switches answer, each entry is triggered once and its switch is spent, each failure is
    reported, and the tables of all hosts are empty afterwards.  Killing one name is the same
    for its entry alone. -/
theorem kill_plugins_complete (r : Registry) (s : System) :
    (∃ entries, BulkKill r s entries) ∧ ∀ i name, SingleKill s i name := by
  have hkill : r.killPlugins s = _ := killHosts_eq s r.hosts
  have hordered := pairwise_entriesFrom s [] (r.hosts.map (·.pool))
  refine ⟨⟨s.entriesFrom [] (r.hosts.map (·.pool)), fun e => ?_, ?_, hordered, ?_,
    fun {before e} he fault => ?_, fun id => ?_, ?_, fun i => ?_⟩, singleKill s⟩
  · rw [mem_entriesFrom_iff, List.mem_map]
    simp
  · refine hordered.imp fun {a b} hab => ?_
    rintro rfl
    exact not_precedes_self _ _ hab
  · rw [hkill]
  · -- The answer at the place of an entry is the one to its own trigger.
    obtain ⟨after, hentries⟩ := he
    have hanswer := getElem?_triggerEach_append s (before.map (·.process))
      (after.map (·.process)) e.process
    rw [List.length_map] at hanswer
    rw [hentries, List.map_append, List.map_cons, hanswer, Option.some.injEq,
      triggerProcess_eq_error_iff]
  · simp [hkill, isSpent_foldl_removeAll, (triggerEach_spends s _).spent]
  · rw [hkill]
  · rw [hkill, table_foldl_removeAll, table_triggerEach]

/-- Two hosts share a table with a process whose number is none that a process can have:
    there is one error. -/
example :
    let p : PluginProcess := { name := "echo", pid := 0, switch := some 0 }
    let s : System :=
      { pools := [{ label := "shared", table := .insert .empty "echo" p }]
        switches := [(0, { process := some 0 })] }
    let h : Host := { name := "a", config := none, pool := 0 }
    (Registry.killHosts s [h, { h with name := "b" }]).1 = [killError "echo" .invalid] := by
  rfl

end System
end PluginHost
