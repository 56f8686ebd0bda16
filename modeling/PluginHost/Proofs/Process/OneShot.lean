/-
  PluginHost.Proofs.Process.OneShot

  A switch with all its clones, and the end that its watcher holds.  The clones share one
  state, so that a switch works once, whichever of them is triggered: what the first
  trigger answers is what the watcher finds, and every later one answers no.

    * `Moves a x y` — what one use of a clone, or of the watcher's end, comes to.  What
      becomes of a signal is left open.
    * `Run x₀ acts x` — `x` has come of `x₀` by `acts`, the first one first.

  The state of a switch is told by its history (`Account`), and so is whatever somebody
  sees of it (`works_once`).
-/
import PluginHost.Process.KillSwitch

namespace PluginHost

/-! ## Histories -/

section Histories

variable {α : Type} {acts before : List α} {a b : α}

/-- An act of a history, and what was done before it. -/
def Happens (acts before : List α) (a : α) : Prop :=
  ∃ after, acts = before ++ a :: after

/-- The act is the last one, or it came before. -/
theorem happens_snoc (h : Happens (acts ++ [b]) before a) :
    (before = acts ∧ a = b) ∨ Happens acts before a := by
  obtain ⟨after, hacts⟩ := h
  obtain rfl | ⟨after, last, rfl⟩ := List.eq_nil_or_concat after
  · obtain ⟨rfl, hb⟩ := List.append_inj' hacts rfl
    exact .inl ⟨rfl, (List.singleton_inj.1 hb).symm⟩
  · rw [List.concat_eq_append, ← List.cons_append, ← List.append_assoc] at hacts
    exact .inr ⟨after, (List.append_inj' hacts rfl).1⟩

end Histories

/-! ## Signals -/

/-- What a switch answers once a signal was sent to its process. -/
def Delivery.answer : Delivery → Except SignalFault Bool
  | .delivered => .ok true
  | .noSuchProcess => .ok false
  | .failed fault => .error fault

namespace KillSwitch

/-! ## One trigger -/

/-- A number that a process can have. -/
def IsValid (pid : Nat) : Prop :=
  0 < pid ∧ pid ≤ maxPid

instance (pid : Nat) : Decidable (IsValid pid) :=
  inferInstanceAs (Decidable (_ ∧ _))

/-- Nobody has used the switch, and its watcher waits. -/
def IsArmed (k : KillSwitch) : Prop :=
  k.spent = false ∧ k.mailbox = .waiting

variable {k : KillSwitch} {send : Nat → Delivery} {pid : Nat}

theorem not_valid_iff : ¬ IsValid pid ↔ pid = 0 ∨ maxPid < pid := by
  unfold IsValid
  omega

/-- A switch that is not armed tells nobody anything, and no signal is sent. -/
theorem trigger_of_not_armed (h : ¬ k.IsArmed) (hspent : k.spent = true → k.mailbox ≠ .waiting) :
    k.trigger send = ⟨{ k with spent := true }, .ok false, none⟩ := by
  have hmail : k.mailbox ≠ .waiting := by
    intro hwaiting
    cases hs : k.spent with
    | true => exact hspent hs hwaiting
    | false => exact h ⟨hs, hwaiting⟩
  have hspend : k.spend = { k with spent := true } := by
    unfold spend
    cases hm : k.mailbox with
    | waiting => exact absurd hm hmail
    | _ => rfl
  unfold trigger
  cases hs : k.spent with
  | true => simp [← hs]
  | false => simp [hmail, hspend]

theorem trigger_of_no_process (h : k.IsArmed) (hp : k.process = none) :
    k.trigger send = ⟨k.tell, .ok true, none⟩ := by
  simp [trigger, h.1, h.2, hp]

theorem trigger_of_not_valid (h : k.IsArmed) (hp : k.process = some pid) (hpid : ¬ IsValid pid) :
    k.trigger send = ⟨k.spend, .error .invalid, none⟩ := by
  simp [trigger, h.1, h.2, hp, not_valid_iff.1 hpid]

theorem trigger_of_valid (h : k.IsArmed) (hp : k.process = some pid) (hpid : IsValid pid) :
    k.trigger send
      = ⟨if send pid = .delivered then k.tell else k.spend, (send pid).answer, some pid⟩ := by
  have hnot : ¬ (pid = 0 ∨ maxPid < pid) := fun hor => not_valid_iff.2 hor hpid
  simp only [trigger, h.1, h.2, hp, hnot]
  cases send pid <;> rfl

/-- A trigger fails only if it is the first one, and only because of the process: its number
    is none, or no signal may be sent to it. -/
theorem answer_trigger_eq_error_iff {fault : SignalFault} :
    (k.trigger send).answer = .error fault ↔ k.IsArmed ∧ ∃ pid, k.process = some pid ∧
      if IsValid pid then send pid = .failed fault else fault = .invalid := by
  by_cases harmed : k.IsArmed
  · cases hp : k.process with
    | none => simp [trigger_of_no_process harmed hp]
    | some pid =>
      by_cases hpid : IsValid pid
      · rw [trigger_of_valid harmed hp hpid]
        cases hsend : send pid <;> simp [Delivery.answer, harmed, hpid, hsend]
      · rw [trigger_of_not_valid harmed hp hpid]
        simp [harmed, hpid, eq_comm]
  · -- A switch that was used, or whose watcher has gone, answers no.
    have hno : (k.trigger send).answer = .ok false := by
      unfold trigger
      split
      · rfl
      · rename_i hfresh
        rw [if_pos fun hwaiting => harmed ⟨by simpa using hfresh, hwaiting⟩]
    simp [hno, harmed]

/-! ## Clones -/

/-- A switch with its clones. -/
structure Shared where
  switch : KillSwitch
  /-- The clones that there are, by their numbers. -/
  clones : List Nat := [0]
  /-- How many clones were ever made. -/
  made : Nat := 1

/-- A switch that was just made, for a process or for a watcher only. -/
def Shared.fresh (process : Option Nat) : Shared where
  switch := { process }

/-- What is done with a switch, and what it shows. -/
inductive Act where
  /-- One clone more is made of a clone. -/
  | clone (i : Nat)
  /-- A clone is triggered.  `outcome` is what becomes of a signal, if one is sent, and
      `signalled` is the process that it is sent to. -/
  | trigger (i : Nat) (outcome : Delivery) (answer : Except SignalFault Bool)
      (signalled : Option Nat)
  /-- A clone is asked whether the switch was used. -/
  | isSpent (i : Nat) (spent : Bool)
  /-- A clone goes away. -/
  | dropClone (i : Nat)
  /-- The watcher's end goes away. -/
  | dropReceiver
  /-- The watcher looks. -/
  | receive (found : Received)

/-- What one act makes of a switch. -/
inductive Moves : Act → Shared → Shared → Prop
  | clone {x : Shared} {i : Nat} (h : i ∈ x.clones) :
      Moves (.clone i) x { x with clones := x.made :: x.clones, made := x.made + 1 }
  | trigger {x : Shared} {i : Nat} (h : i ∈ x.clones) (outcome : Delivery) :
      Moves (.trigger i outcome (x.switch.trigger fun _ => outcome).answer
          (x.switch.trigger fun _ => outcome).signalled) x
        { x with switch := (x.switch.trigger fun _ => outcome).switch }
  | isSpent {x : Shared} {i : Nat} (h : i ∈ x.clones) : Moves (.isSpent i x.switch.spent) x x
  /-- With the last clone the sender goes, unless it was used. -/
  | dropClone {x : Shared} {i : Nat} (h : i ∈ x.clones) :
      Moves (.dropClone i) x { x with
        clones := x.clones.erase i
        switch := if x.clones.erase i = [] then x.switch.dropSender else x.switch }
  | dropReceiver {x : Shared} : Moves .dropReceiver x { x with switch := x.switch.dropReceiver }
  | receive {x : Shared} :
      Moves (.receive x.switch.receive.1) x { x with switch := x.switch.receive.2 }

/-- A switch has come to its state by acts. -/
inductive Run (x₀ : Shared) : List Act → Shared → Prop
  | nil : Run x₀ [] x₀
  | snoc {acts : List Act} {a : Act} {x y : Shared} (h : Run x₀ acts x) (hm : Moves a x y) :
      Run x₀ (acts ++ [a]) y

/-! ## What a history tells -/

namespace Act

def isTrigger : Act → Bool
  | .trigger .. => true
  | _ => false

/-- Whether the watcher is told. -/
def tells : Act → Bool
  | .trigger _ _ (.ok true) _ => true
  | _ => false

/-- Whether the watcher takes the message. -/
def hears : Act → Bool
  | .receive .notified => true
  | _ => false

def leaves : Act → Bool
  | .dropReceiver => true
  | _ => false

def isClone : Act → Bool
  | .clone _ => true
  | _ => false

def isDrop : Act → Bool
  | .dropClone _ => true
  | _ => false

/-- Whether a signal is sent. -/
def signals : Act → Bool
  | .trigger _ _ _ (some _) => true
  | _ => false

end Act

/-- Whether no clone is left after a history. -/
def isReleased (acts : List Act) : Bool :=
  acts.countP Act.isDrop = acts.countP Act.isClone + 1

/-- What the watcher will find next. -/
def mailboxAfter (acts : List Act) : Mailbox :=
  if acts.any Act.leaves then .gone
  else if acts.any Act.tells then if acts.any Act.hears then .over else .told
  else if acts.any Act.isTrigger || isReleased acts then .over
  else .waiting

/-- The state of a switch after a history. -/
structure Account (process : Option Nat) (acts : List Act) (x : Shared) : Prop where
  process : x.switch.process = process
  spent : x.switch.spent = acts.any Act.isTrigger
  mailbox : x.switch.mailbox = mailboxAfter acts
  clones : x.clones.length + acts.countP Act.isDrop = acts.countP Act.isClone + 1
  -- Nothing is heard that was not told.
  heard : acts.any Act.hears = true → acts.any Act.tells = true

variable {process : Option Nat} {acts : List Act} {a : Act} {x y : Shared}

theorem Account.init (process : Option Nat) : Account process [] (.fresh process) :=
  ⟨rfl, rfl, rfl, rfl, nofun⟩

theorem untold_of_untriggered (h : acts.any Act.isTrigger = false) :
    acts.any Act.tells = false := by
  rw [List.any_eq_false] at h ⊢
  intro a ha
  have hother := h a ha
  cases a <;> first | exact absurd rfl hother | simp [Act.tells]

/-- Where there is a clone, the switch is armed exactly if nobody has used it and the
    watcher is there. -/
theorem Account.isArmed_iff (h : Account process acts x) {i : Nat} (hi : i ∈ x.clones) :
    x.switch.IsArmed ↔ acts.any Act.isTrigger = false ∧ acts.any Act.leaves = false := by
  have hclones := h.clones
  have hpos : 0 < x.clones.length := List.length_pos_of_mem hi
  have hheld : isReleased acts = false := by
    rw [isReleased, decide_eq_false_iff_not]
    omega
  rw [IsArmed, h.spent, h.mailbox, mailboxAfter]
  constructor
  · rintro ⟨hnone, hwaiting⟩
    refine ⟨hnone, ?_⟩
    cases hleaves : acts.any Act.leaves with
    | false => rfl
    | true => simp [hleaves] at hwaiting
  · rintro ⟨hnone, hstays⟩
    have huntold := untold_of_untriggered hnone
    refine ⟨hnone, ?_⟩
    simp [hnone, hstays, huntold, hheld]

/-- A switch that was used has no watcher any more that waits. -/
theorem Account.not_waiting (h : Account process acts x) (hspent : x.switch.spent = true) :
    x.switch.mailbox ≠ .waiting := by
  have htriggered : acts.any Act.isTrigger = true := h.spent.symm.trans hspent
  rw [h.mailbox, mailboxAfter]
  simp only [htriggered, Bool.true_or, if_true]
  split
  · simp
  · split
    · split <;> simp
    · simp

/-- What the first trigger answers, and whom it signals. -/
structure Answers (process : Option Nat) (before : List Act) (outcome : Delivery)
    (answer : Except SignalFault Bool) (signalled : Option Nat) : Prop where
  sent : ∀ pid, signalled = some pid ↔ before.any Act.isTrigger = false ∧
    before.any Act.leaves = false ∧ process = some pid ∧ IsValid pid
  told : answer = .ok true ↔ before.any Act.isTrigger = false ∧ before.any Act.leaves = false ∧
    (process = none ∨ signalled.isSome ∧ outcome = .delivered)
  failed : ∀ fault, answer = .error fault ↔ before.any Act.isTrigger = false ∧
    before.any Act.leaves = false ∧
    ((∃ pid, process = some pid ∧ ¬ IsValid pid ∧ fault = .invalid) ∨
      signalled.isSome ∧ outcome = .failed fault)

/-- The answer of a trigger is told by the history before it. -/
theorem Account.answers (h : Account process acts x) {i : Nat} (hi : i ∈ x.clones)
    (outcome : Delivery) :
    Answers process acts outcome (x.switch.trigger fun _ => outcome).answer
      (x.switch.trigger fun _ => outcome).signalled := by
  by_cases harmed : x.switch.IsArmed
  · obtain ⟨hnone, hstays⟩ := (h.isArmed_iff hi).1 harmed
    cases hp : process with
    | none =>
      have hprocess : x.switch.process = none := h.process.trans hp
      rw [trigger_of_no_process harmed hprocess]
      exact ⟨by simp, by simp [hnone, hstays], by simp⟩
    | some pid =>
      have hprocess : x.switch.process = some pid := h.process.trans hp
      by_cases hpid : IsValid pid
      · rw [trigger_of_valid harmed hprocess hpid]
        refine ⟨fun q => ?_, ?_, fun fault => ?_⟩
        · simp only [hnone, hstays, Option.some.injEq, true_and]
          exact ⟨fun heq => ⟨heq, heq ▸ hpid⟩, And.left⟩
        · cases outcome <;> simp [hnone, hstays, Delivery.answer]
        · cases outcome <;> simp [hnone, hstays, hpid, Delivery.answer]
      · rw [trigger_of_not_valid harmed hprocess hpid]
        refine ⟨fun q => ?_, by simp, fun fault => ?_⟩
        · simp only [hnone, hstays, Option.some.injEq, true_and, reduceCtorEq, false_iff]
          rintro ⟨rfl, hq⟩
          exact hpid hq
        · simp [hnone, hstays, hpid, eq_comm]
  · -- Somebody was faster, or the watcher has gone.
    have hnot : ¬ (acts.any Act.isTrigger = false ∧ acts.any Act.leaves = false) :=
      fun hboth => harmed ((h.isArmed_iff hi).2 hboth)
    rw [trigger_of_not_armed harmed h.not_waiting]
    refine ⟨fun q => ?_, ?_, fun fault => ?_⟩
    · simp only [reduceCtorEq, false_iff]
      exact fun hall => hnot ⟨hall.1, hall.2.1⟩
    · simp only [Except.ok.injEq, Bool.false_eq_true, false_iff]
      exact fun hall => hnot ⟨hall.1, hall.2.1⟩
    · simp only [reduceCtorEq, false_iff]
      exact fun hall => hnot ⟨hall.1, hall.2.1⟩

/-! ## One act more -/

theorem any_snoc (p : Act → Bool) (acts : List Act) (a : Act) :
    (acts ++ [a]).any p = (acts.any p || p a) := by
  simp

theorem countP_snoc (p : Act → Bool) (acts : List Act) (a : Act) :
    (acts ++ [a]).countP p = acts.countP p + if p a then 1 else 0 := by
  simp [List.countP_append, List.countP_singleton]

/-- An act that neither the switch nor its clones show. -/
theorem Account.same (h : Account process acts x) (ht : a.isTrigger = false)
    (hh : a.hears = false) (hl : a.leaves = false) (hc : a.isClone = false)
    (hd : a.isDrop = false) : Account process (acts ++ [a]) x := by
  have htells : a.tells = false := by
    cases a <;> first | rfl | cases ht
  have hreleased : isReleased (acts ++ [a]) = isReleased acts := by
    rw [isReleased, isReleased, decide_eq_decide, countP_snoc, countP_snoc, hc, hd]
    rfl
  have hmailbox : mailboxAfter (acts ++ [a]) = mailboxAfter acts := by
    simp only [mailboxAfter, hreleased, any_snoc, ht, hh, hl, htells, Bool.or_false]
  refine ⟨h.process, ?_, h.mailbox.trans hmailbox.symm, ?_, ?_⟩
  · rw [any_snoc, ht, Bool.or_false]
    exact h.spent
  · rw [countP_snoc, countP_snoc, hc, hd]
    exact h.clones
  · rw [any_snoc, any_snoc, hh, htells, Bool.or_false, Bool.or_false]
    exact h.heard

/-- A clone more or less is seen by the watcher only if none is left. -/
theorem Account.release (h : Account process acts x) (cs : List Nat) {n : Nat}
    (ht : a.isTrigger = false) (hh : a.hears = false) (hl : a.leaves = false)
    (hcs : cs.length + (acts ++ [a]).countP Act.isDrop = (acts ++ [a]).countP Act.isClone + 1)
    (hheld : x.clones ≠ []) :
    Account process (acts ++ [a]) { x with
      clones := cs
      made := n
      switch := if cs = [] then x.switch.dropSender else x.switch } := by
  have htells : a.tells = false := by
    cases a <;> first | rfl | cases ht
  have hbefore : isReleased acts = false := by
    have hclones := h.clones
    have hpos := List.length_pos_iff.2 hheld
    rw [isReleased, decide_eq_false_iff_not]
    omega
  have hafter : isReleased (acts ++ [a]) = decide (cs = []) := by
    rw [isReleased, decide_eq_decide, ← List.length_eq_zero_iff]
    omega
  have hmailbox := h.mailbox
  simp only [mailboxAfter, hbefore, Bool.or_false] at hmailbox
  have hsame : (if cs = [] then x.switch.dropSender else x.switch).process = x.switch.process ∧
      (if cs = [] then x.switch.dropSender else x.switch).spent = x.switch.spent := by
    split <;> exact ⟨rfl, rfl⟩
  refine ⟨hsame.1.trans h.process, ?_, ?_, hcs, ?_⟩
  · rw [any_snoc, ht, Bool.or_false]
    exact hsame.2.trans h.spent
  · simp only [mailboxAfter, hafter, any_snoc, ht, hh, hl, htells, Bool.or_false]
    by_cases hnone : cs = []
    · -- The last clone takes the sender with it, unless that was used.
      simp only [hnone, if_true, dropSender, hmailbox, decide_true, Bool.or_true]
      cases acts.any Act.leaves <;> cases acts.any Act.tells <;> cases acts.any Act.hears <;>
        cases acts.any Act.isTrigger <;> rfl
    · simp only [hnone, if_false, hmailbox, decide_false, Bool.or_false]
  · rw [any_snoc, any_snoc, hh, htells, Bool.or_false, Bool.or_false]
    exact h.heard

/-- What an armed switch makes of a trigger: the watcher was told, or it sees the sender go. -/
theorem IsArmed.trigger_cases (h : k.IsArmed) (send : Nat → Delivery) :
    ((k.trigger send).answer = .ok true ∧ (k.trigger send).switch = k.tell) ∨
      ((k.trigger send).answer ≠ .ok true ∧ (k.trigger send).switch = k.spend) := by
  cases hp : k.process with
  | none => exact .inl (by rw [trigger_of_no_process h hp]; exact ⟨rfl, rfl⟩)
  | some pid =>
    by_cases hpid : IsValid pid
    · rw [trigger_of_valid h hp hpid]
      cases send pid <;> simp [Delivery.answer]
    · exact .inr (by rw [trigger_of_not_valid h hp hpid]; simp)

theorem tells_trigger (i : Nat) (outcome : Delivery) (answer : Except SignalFault Bool)
    (signalled : Option Nat) :
    (Act.trigger i outcome answer signalled).tells = true ↔ answer = .ok true := by
  cases answer with
  | error fault => simp [Act.tells]
  | ok b => cases b <;> simp [Act.tells]

/-- A trigger uses the switch, and neither clones nor the watcher's end are touched. -/
theorem Account.use (h : Account process acts x) (ht : a.isTrigger = true) {k : KillSwitch}
    (hp : k.process = x.switch.process) (hs : k.spent = true)
    (hm : k.mailbox = if acts.any Act.leaves then .gone
      else if acts.any Act.tells || a.tells then if acts.any Act.hears then .over else .told
      else .over) : Account process (acts ++ [a]) { x with switch := k } := by
  have hothers : a.hears = false ∧ a.leaves = false ∧ a.isClone = false ∧ a.isDrop = false := by
    cases a <;> first | exact ⟨rfl, rfl, rfl, rfl⟩ | cases ht
  obtain ⟨hh, hl, hc, hd⟩ := hothers
  refine ⟨hp.trans h.process, ?_, ?_, ?_, fun hheard => ?_⟩
  · rw [any_snoc, ht, Bool.or_true]
    exact hs
  · rw [hm, mailboxAfter]
    simp only [any_snoc, ht, hh, hl, Bool.or_false, Bool.or_true, Bool.true_or, if_true]
  · rw [countP_snoc, countP_snoc, hc, hd]
    exact h.clones
  · rw [any_snoc, hh, Bool.or_false] at hheard
    rw [any_snoc, h.heard hheard, Bool.true_or]

/-- The answer of a trigger stands in the mailbox. -/
theorem Account.trigger (h : Account process acts x) {i : Nat} (hi : i ∈ x.clones)
    (outcome : Delivery) :
    Account process (acts ++ [.trigger i outcome (x.switch.trigger fun _ => outcome).answer
        (x.switch.trigger fun _ => outcome).signalled])
      { x with switch := (x.switch.trigger fun _ => outcome).switch } := by
  have htells := tells_trigger i outcome (x.switch.trigger fun _ => outcome).answer
    (x.switch.trigger fun _ => outcome).signalled
  by_cases harmed : x.switch.IsArmed
  · obtain ⟨hnone, hstays⟩ := (h.isArmed_iff hi).1 harmed
    have huntold := untold_of_untriggered hnone
    have hunheard : acts.any Act.hears = false := by
      rw [Bool.eq_false_iff]
      intro hheard
      rw [h.heard hheard] at huntold
      cases huntold
    obtain ⟨hanswer, hswitch⟩ | ⟨hanswer, hswitch⟩ := harmed.trigger_cases fun _ => outcome
    · rw [hswitch]
      refine h.use rfl rfl rfl ?_
      rw [htells.2 hanswer, hstays, hunheard, Bool.or_true]
      rfl
    · rw [hswitch]
      refine h.use rfl rfl rfl ?_
      rw [Bool.eq_false_iff.2 fun ht => hanswer (htells.1 ht), hstays, huntold, spend, harmed.2]
      rfl
  · -- The mailbox stays as it is: the switch was used before, or nobody looks any more.
    rw [trigger_of_not_armed harmed h.not_waiting]
    refine h.use rfl rfl rfl ?_
    have huntold : (Act.trigger i outcome (.ok false) none).tells = false := rfl
    have hflags : acts.any Act.isTrigger = true ∨ acts.any Act.leaves = true := by
      rw [h.isArmed_iff hi] at harmed
      cases ht : acts.any Act.isTrigger with
      | true => exact .inl rfl
      | false =>
        refine .inr ?_
        rw [← Bool.not_eq_false]
        exact fun hl => harmed ⟨ht, hl⟩
    rw [huntold, Bool.or_false, h.mailbox, mailboxAfter]
    obtain hflag | hflag := hflags <;> simp [hflag]

theorem mailboxAfter_eq_told_iff : mailboxAfter acts = .told ↔
    acts.any Act.leaves = false ∧ acts.any Act.tells = true ∧ acts.any Act.hears = false := by
  unfold mailboxAfter
  cases acts.any Act.leaves <;> cases acts.any Act.tells <;> cases acts.any Act.hears <;>
    cases acts.any Act.isTrigger || isReleased acts <;> simp

theorem Account.receive (h : Account process acts x) :
    Account process (acts ++ [.receive x.switch.receive.1])
      { x with switch := x.switch.receive.2 } := by
  cases hm : x.switch.mailbox with
  | told =>
    -- The message is taken, and nothing comes after it.
    obtain ⟨hstays, htold, hunheard⟩ := mailboxAfter_eq_told_iff.1 (h.mailbox.symm.trans hm)
    have hreceive : x.switch.receive = (.notified, { x.switch with mailbox := .over }) := by
      rw [KillSwitch.receive, hm]
    rw [hreceive]
    refine ⟨h.process, ?_, ?_, ?_, fun _ => ?_⟩
    · simpa [Act.isTrigger] using h.spent
    · simp [mailboxAfter, hstays, htold, Act.leaves, Act.tells, Act.hears]
    · rw [countP_snoc, countP_snoc]
      exact h.clones
    · rw [any_snoc, htold, Bool.true_or]
  | waiting =>
    have hreceive : x.switch.receive = (.empty, x.switch) := by rw [KillSwitch.receive, hm]
    rw [hreceive]
    exact h.same rfl rfl rfl rfl rfl
  | gone =>
    have hreceive : x.switch.receive = (.noReceiver, x.switch) := by rw [KillSwitch.receive, hm]
    rw [hreceive]
    exact h.same rfl rfl rfl rfl rfl
  | _ =>
    have hreceive : x.switch.receive = (.closed, x.switch) := by rw [KillSwitch.receive, hm]
    rw [hreceive]
    exact h.same rfl rfl rfl rfl rfl

theorem Account.move (h : Account process acts x) (hm : Moves a x y) :
    Account process (acts ++ [a]) y := by
  have hclones := h.clones
  cases hm with
  | @clone _ i hi =>
    refine h.release (x.made :: x.clones) rfl rfl rfl ?_ (List.ne_nil_of_mem hi)
    rw [countP_snoc, countP_snoc, List.length_cons]
    simp only [Act.isDrop, Act.isClone, if_true, Bool.false_eq_true, if_false]
    omega
  | trigger hi outcome => exact h.trigger hi outcome
  | isSpent hi => exact h.same rfl rfl rfl rfl rfl
  | @dropClone _ i hi =>
    have hpos := List.length_pos_of_mem hi
    refine h.release (x.clones.erase i) rfl rfl rfl ?_ (List.ne_nil_of_mem hi)
    rw [countP_snoc, countP_snoc, List.length_erase_of_mem hi]
    simp only [Act.isDrop, Act.isClone, if_true, Bool.false_eq_true, if_false]
    omega
  | dropReceiver =>
    have hspent : x.switch.dropReceiver.spent = x.switch.spent := rfl
    refine ⟨h.process, ?_, ?_, ?_, ?_⟩
    · simpa [Act.isTrigger, hspent] using h.spent
    · simp [mailboxAfter, KillSwitch.dropReceiver, Act.leaves]
    · rw [countP_snoc, countP_snoc]
      exact hclones
    · simpa [Act.hears, Act.tells] using h.heard
  | receive => exact h.receive

theorem Run.account (h : Run (.fresh process) acts x) : Account process acts x := by
  induction h with
  | nil => exact Account.init process
  | snoc _ hm ih => exact ih.move hm

/-! ## What a switch shows -/

theorem Run.happens {x₀ : Shared} (h : Run x₀ acts x) {before : List Act}
    (ha : Happens acts before a) : ∃ y z, Run x₀ before y ∧ Moves a y z := by
  induction h with
  | nil =>
    obtain ⟨after, hacts⟩ := ha
    simp at hacts
  | snoc h hm ih =>
    obtain ⟨rfl, rfl⟩ | hbefore := happens_snoc ha
    · exact ⟨_, _, h, hm⟩
    · exact ih hbefore

/-- All that a switch shows, as far as its history tells. -/
structure WorksOnce (process : Option Nat) (acts : List Act) : Prop where
  /-- Only the first trigger can answer anything but no. -/
  later : ∀ {before i outcome answer signalled},
    Happens acts before (.trigger i outcome answer signalled) →
      before.any Act.isTrigger = true → answer = .ok false ∧ signalled = none
  /-- The first one answers what becomes of it. -/
  answers : ∀ {before i outcome answer signalled},
    Happens acts before (.trigger i outcome answer signalled) →
      Answers process before outcome answer signalled
  /-- At most one signal is sent. -/
  attempts : acts.countP Act.signals ≤ 1
  /-- Every clone knows whether there was a trigger. -/
  spent : ∀ {before i spent}, Happens acts before (.isSpent i spent) →
    spent = before.any Act.isTrigger
  /-- The watcher finds a message once if a trigger has answered yes. -/
  notified : ∀ {before found}, Happens acts before (.receive found) →
    (found = .notified ↔ before.any Act.leaves = false ∧ before.any Act.tells = true ∧
      before.any Act.hears = false)
  /-- It finds that nothing will come once a trigger has answered otherwise, or the
      message was taken, or the last clone has gone. -/
  closed : ∀ {before found}, Happens acts before (.receive found) →
    (found = .closed ↔ before.any Act.leaves = false ∧
      (before.any Act.hears = true ∨ before.any Act.tells = false ∧
        (before.any Act.isTrigger = true ∨ isReleased before = true)))

theorem receive_eq_notified_iff (k : KillSwitch) :
    k.receive.1 = .notified ↔ k.mailbox = .told := by
  unfold receive
  cases k.mailbox <;> simp

theorem receive_eq_closed_iff (k : KillSwitch) : k.receive.1 = .closed ↔ k.mailbox = .over := by
  unfold receive
  cases k.mailbox <;> simp

theorem mailboxAfter_eq_over_iff (hheard : acts.any Act.hears = true → acts.any Act.tells = true) :
    mailboxAfter acts = .over ↔ acts.any Act.leaves = false ∧
      (acts.any Act.hears = true ∨ acts.any Act.tells = false ∧
        (acts.any Act.isTrigger = true ∨ isReleased acts = true)) := by
  unfold mailboxAfter
  revert hheard
  cases acts.any Act.leaves <;> cases acts.any Act.tells <;> cases acts.any Act.hears <;>
    cases acts.any Act.isTrigger <;> cases isReleased acts <;> simp

theorem Answers.of_triggered {before : List Act} {outcome : Delivery}
    {answer : Except SignalFault Bool} {signalled : Option Nat}
    (h : Answers process before outcome answer signalled)
    (ht : before.any Act.isTrigger = true) : answer = .ok false ∧ signalled = none := by
  have hnot {p : Prop} : ¬ (before.any Act.isTrigger = false ∧ p) := by
    rw [ht]
    simp
  constructor
  · cases answer with
    | error fault => exact absurd ((h.failed fault).1 rfl) hnot
    | ok b =>
      cases b with
      | false => rfl
      | true => exact absurd (h.told.1 rfl) hnot
  · cases signalled with
    | none => rfl
    | some pid => exact absurd ((h.sent pid).1 rfl) hnot

/-- Nothing was sent before the first trigger, and nothing is sent after it. -/
theorem Run.attempts (h : Run (.fresh process) acts x) :
    acts.countP Act.signals ≤ if acts.any Act.isTrigger then 1 else 0 := by
  induction h with
  | nil => simp
  | @snoc acts a x y h hm ih =>
    have hsame (hs : a.signals = false) (ht : a.isTrigger = false) :
        (acts ++ [a]).countP Act.signals ≤ if (acts ++ [a]).any Act.isTrigger then 1 else 0 := by
      rw [countP_snoc, any_snoc, hs, ht, Bool.or_false]
      exact ih
    cases hm with
    | @trigger _ i hi outcome =>
      have hanswers := h.account.answers hi outcome
      rw [countP_snoc, any_snoc, Act.isTrigger, Bool.or_true, if_pos rfl]
      cases ht : acts.any Act.isTrigger with
      | false =>
        rw [ht] at ih
        simp only [Bool.false_eq_true, if_false, Nat.le_zero] at ih
        rw [ih]
        split <;> simp
      | true =>
        rw [ht, if_pos rfl] at ih
        rw [(hanswers.of_triggered ht).2]
        exact ih
    | _ => exact hsame rfl rfl

/-- A switch works once.  Only the first trigger of all clones can answer anything but no,
    and a signal is sent by this one only, to a process whose number is valid, and as long
    as the watcher is there.  Every clone shows from then on that the switch was used; and
    the watcher finds its message exactly if that trigger has answered yes. -/
theorem works_once (h : Run (.fresh process) acts x) : WorksOnce process acts := by
  have hanswers {before : List Act} {i : Nat} {outcome : Delivery}
      {answer : Except SignalFault Bool} {signalled : Option Nat}
      (ha : Happens acts before (.trigger i outcome answer signalled)) :
      Answers process before outcome answer signalled := by
    obtain ⟨y, z, hy, hm⟩ := h.happens ha
    cases hm with
    | trigger hi outcome => exact hy.account.answers hi outcome
  refine ⟨fun ha => (hanswers ha).of_triggered, hanswers, ?_, fun ha => ?_, fun ha => ?_,
    fun ha => ?_⟩
  · refine Nat.le_trans h.attempts ?_
    split <;> simp
  · obtain ⟨y, z, hy, hm⟩ := h.happens ha
    cases hm with
    | isSpent hi => exact hy.account.spent
  · obtain ⟨y, z, hy, hm⟩ := h.happens ha
    cases hm with
    | receive => rw [receive_eq_notified_iff, hy.account.mailbox, mailboxAfter_eq_told_iff]
  · obtain ⟨y, z, hy, hm⟩ := h.happens ha
    cases hm with
    | receive =>
      rw [receive_eq_closed_iff, hy.account.mailbox, mailboxAfter_eq_over_iff hy.account.heard]

/-! ## Two clones -/

/-- A clone is triggered, and then the clone that it was made of. -/
def twoClones : List Act :=
  [.clone 0, .isSpent 1 false, .trigger 1 .delivered (.ok true) (some 7), .isSpent 0 true,
    .trigger 0 .delivered (.ok false) none, .receive .notified, .receive .closed]

theorem run_twoClones : Run (.fresh (some 7)) twoClones ⟨⟨some 7, true, .over⟩, [1, 0], 2⟩ := by
  have hstart : Run (.fresh (some 7)) [] ⟨⟨some 7, false, .waiting⟩, [0], 1⟩ := .nil
  have hclone : Run (.fresh (some 7)) [.clone 0] ⟨⟨some 7, false, .waiting⟩, [1, 0], 2⟩ :=
    hstart.snoc (.clone (by decide))
  have hunspent : Run (.fresh (some 7)) (twoClones.take 2) ⟨⟨some 7, false, .waiting⟩, [1, 0], 2⟩ :=
    hclone.snoc (.isSpent (x := ⟨⟨some 7, false, .waiting⟩, [1, 0], 2⟩) (i := 1) (by decide))
  have hfirst : Run (.fresh (some 7)) (twoClones.take 3) ⟨⟨some 7, true, .told⟩, [1, 0], 2⟩ :=
    hunspent.snoc (.trigger (x := ⟨⟨some 7, false, .waiting⟩, [1, 0], 2⟩) (i := 1) (by decide)
      .delivered)
  have hspent : Run (.fresh (some 7)) (twoClones.take 4) ⟨⟨some 7, true, .told⟩, [1, 0], 2⟩ :=
    hfirst.snoc (.isSpent (x := ⟨⟨some 7, true, .told⟩, [1, 0], 2⟩) (i := 0) (by decide))
  have hsecond : Run (.fresh (some 7)) (twoClones.take 5) ⟨⟨some 7, true, .told⟩, [1, 0], 2⟩ :=
    hspent.snoc (.trigger (x := ⟨⟨some 7, true, .told⟩, [1, 0], 2⟩) (i := 0) (by decide)
      .delivered)
  have hheard : Run (.fresh (some 7)) (twoClones.take 6) ⟨⟨some 7, true, .over⟩, [1, 0], 2⟩ :=
    hsecond.snoc (.receive (x := ⟨⟨some 7, true, .told⟩, [1, 0], 2⟩))
  exact hheard.snoc (.receive (x := ⟨⟨some 7, true, .over⟩, [1, 0], 2⟩))

/-- The second trigger comes too late, and the watcher is told once. -/
theorem two_clones_one_shot :
    Run (.fresh (some 7)) twoClones ⟨⟨some 7, true, .over⟩, [1, 0], 2⟩ ∧
      WorksOnce (some 7) twoClones :=
  ⟨run_twoClones, works_once run_twoClones⟩

end KillSwitch
end PluginHost
