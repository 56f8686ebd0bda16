/-
  PluginHost.Proofs.System.Children

  Programs of the machine and the switches by which they are told to stop.  Where nothing
  but programs of the machine is started, child and switch come in pairs: they are made
  together, and bear the same number.

  `Tended` says of each pair what its switch tells about its child: as long as the switch
  has not been used, nobody has asked the child to stop, and its watcher still waits for
  the message; once it has been used, a child that runs has been asked.  Every operation
  keeps this, whatever it does to the tables.
-/
import PluginHost.Proofs.System.Ending

namespace PluginHost

/-! ## One child -/

namespace Child

variable {c : Child} {now : Nat}

theorem isRunning_endAt (c : Child) (moment : Nat) : (c.endAt moment).isRunning = false :=
  rfl

theorem isRunning_killAt (c : Child) (moment : Nat) : (c.killAt moment).isRunning = false :=
  rfl

theorem elapse_of_ended (h : c.isRunning = false) : c.elapse now = c := by
  rw [elapse, h]
  rfl

/-- What has happened to a child later on, if nobody has asked it to stop. -/
structure Later (c c' : Child) : Prop where
  pid : c'.pid = c.pid
  switch : c'.switch = c.switch
  watched : c'.watched = c.watched
  behaviour : c'.behaviour = c.behaviour
  askedAt : c'.askedAt = c.askedAt
  running : c'.isRunning = true → c.isRunning = true
  signals : c'.isRunning = true → c'.signals = c.signals

theorem later_refl (c : Child) : Later c c :=
  ⟨rfl, rfl, rfl, rfl, rfl, id, fun _ => rfl⟩

theorem later_endAt (c : Child) (moment : Nat) : Later c (c.endAt moment) :=
  ⟨rfl, rfl, rfl, rfl, rfl, nofun, fun _ => rfl⟩

theorem later_killAt (c : Child) (moment : Nat) : Later c (c.killAt moment) where
  pid := rfl
  switch := rfl
  watched := rfl
  behaviour := rfl
  askedAt := by simp [askedAt, killAt, List.find?_append]
  running h := by cases h
  signals h := by cases h

/-- A child is left as it is, or ends. -/
theorem elapse_cases (now : Nat) (c : Child) :
    c.elapse now = c ∨ (∃ moment, c.elapse now = c.endAt moment) ∨
      ∃ moment, c.elapse now = c.killAt moment := by
  unfold elapse
  split
  · exact .inl rfl
  split
  · split
    · exact .inr (.inl ⟨_, rfl⟩)
    · exact .inr (.inr ⟨_, rfl⟩)
  · exact .inr (.inl ⟨_, rfl⟩)
  · exact .inr (.inr ⟨_, rfl⟩)
  · exact .inl rfl

theorem later_elapse (now : Nat) (c : Child) : Later c (c.elapse now) := by
  rcases elapse_cases now c with h | ⟨moment, h⟩ | ⟨moment, h⟩ <;> rw [h]
  · exact later_refl c
  · exact later_endAt c moment
  · exact later_killAt c moment

/-- A child that has been brought up to a moment is there. -/
theorem elapse_elapse (now : Nat) (c : Child) : (c.elapse now).elapse now = c.elapse now := by
  rcases elapse_cases now c with h | ⟨moment, h⟩ | ⟨moment, h⟩
  · rw [h, h]
  · rw [h, elapse_of_ended (isRunning_endAt c moment)]
  · rw [h, elapse_of_ended (isRunning_killAt c moment)]

theorem later_crash (now : Nat) (c : Child) : Later c (c.crash now) := by
  unfold crash
  split
  · exact later_endAt c now
  · exact later_refl c

theorem elapse_crash (now : Nat) (c : Child) (h : c.elapse now = c) :
    (c.crash now).elapse now = c.crash now := by
  unfold crash
  split
  · exact elapse_of_ended (isRunning_endAt c now)
  · exact h

/-! ### When a child goes on -/

theorem lt_endDue_iff :
    (∀ e ∈ c.endDue, now < e) ↔
      (∀ t ∈ c.behaviour.lifetime, now < c.started + t) ∧
        ∀ a ∈ c.askedAt, ∀ t ∈ c.behaviour.reaction, now < a + t := by
  have hmin (xs : List Nat) : (∀ e ∈ xs.min?, now < e) ↔ ∀ x ∈ xs, now < x := by
    cases hx : xs.min? with
    | none => simp [List.min?_eq_none_iff.1 hx]
    | some m =>
      have hle := List.le_min?_iff hx (x := now + 1)
      simpa [Nat.succ_le_iff] using hle
  rw [endDue, hmin]
  cases hl : c.behaviour.lifetime <;> cases ha : c.askedAt <;> cases hr : c.behaviour.reaction <;>
    simp

theorem lt_killDue_iff (hwatched : c.watched = true) :
    (∀ k ∈ c.killDue, now < k) ↔ ∀ a ∈ c.askedAt, now < a + patience := by
  rw [killDue, hwatched]
  cases c.askedAt <;> simp

/-- A child that runs goes on beyond a moment if neither its time nor its watcher's
    patience has come to an end. -/
theorem elapse_eq_self_iff (hrun : c.isRunning = true) (hwatched : c.watched = true) :
    c.elapse now = c ↔
      ((∀ t ∈ c.behaviour.lifetime, now < c.started + t) ∧
        ∀ a ∈ c.askedAt, ∀ t ∈ c.behaviour.reaction, now < a + t) ∧
      ∀ a ∈ c.askedAt, now < a + patience := by
  rw [← lt_endDue_iff, ← lt_killDue_iff hwatched]
  have hfilter (o : Option Nat) : o.filter (· ≤ now) = none ↔ ∀ e ∈ o, now < e := by
    cases o <;> simp [Option.filter]
  have hne (c' : Child) (h : c'.isRunning = false) : c' ≠ c := by
    rintro rfl
    rw [hrun] at h
    cases h
  rw [← hfilter, ← hfilter]
  unfold elapse
  rw [hrun]
  -- Whichever of the two is due first, a child that has ended is not this one.
  cases c.endDue.filter (· ≤ now) with
  | none =>
    cases c.killDue.filter (· ≤ now) with
    | none => simp
    | some k => simpa using hne _ (isRunning_killAt c k)
  | some e =>
    cases c.killDue.filter (· ≤ now) with
    | none => simpa using hne _ (isRunning_endAt c e)
    | some k =>
      by_cases hle : e ≤ k
      · simpa [hle] using hne _ (isRunning_endAt c e)
      · simpa [hle] using hne _ (isRunning_killAt c k)

/-! ### Asking a child to stop -/

theorem askedAt_ask (now : Nat) (c : Child) : (c.ask now).askedAt = some (c.askedAt.getD now) := by
  rw [ask, (later_elapse now _).askedAt, askedAt, List.find?_append, askedAt]
  cases c.signals.find? fun x => decide (x.2 = .terminate) <;> simp

theorem askedAt_ask_cases {a : Nat} (h : (c.ask now).askedAt = some a) :
    c.askedAt = some a ∨ a = now := by
  rw [askedAt_ask, Option.some.injEq] at h
  cases hc : c.askedAt with
  | none =>
    rw [hc] at h
    exact .inr h.symm
  | some b =>
    rw [hc] at h
    exact .inl (congrArg some h)

/-- A program that goes on for some time when it is told to stop, or cannot be told. -/
def IsStubborn (c : Child) : Prop :=
  c.isRunning = true ∧ (c.behaviour.reaction ≠ some 0 ∨ KillSwitch.maxPid < c.pid)

theorem isRunning_ask (hrun : c.isRunning = true) (hwatched : c.watched = true)
    (hsettled : c.elapse now = c) (hreaction : c.behaviour.reaction ≠ some 0) :
    (c.ask now).isRunning = true := by
  obtain ⟨⟨hlife, hreact⟩, hpatience⟩ := (elapse_eq_self_iff hrun hwatched).1 hsettled
  let asked : Child := { c with signals := c.signals ++ [(now, .terminate)] }
  have hasked : (c.ask now).askedAt = asked.askedAt := (later_elapse now asked).askedAt
  have hself : asked.elapse now = asked := by
    refine (elapse_eq_self_iff (c := asked) hrun hwatched).2
      ⟨⟨hlife, fun a ha t ht => ?_⟩, fun a ha => ?_⟩
    · -- It was asked before and goes on all the same, or it has some time left.
      obtain hold | rfl := askedAt_ask_cases (hasked.trans ha)
      · exact hreact a hold t ht
      · have hpos : t ≠ 0 := by
          rintro rfl
          exact hreaction ht
        omega
    · obtain hold | rfl := askedAt_ask_cases (hasked.trans ha)
      · exact hpatience a hold
      · exact Nat.lt_add_of_pos_right (by decide)
  rw [ask, hself]
  exact hrun

/-- What is left of a child when switches are used and no time passes. -/
structure Told (c c' : Child) : Prop where
  pid : c'.pid = c.pid
  behaviour : c'.behaviour = c.behaviour
  running : c'.isRunning = true → c.isRunning = true
  stubborn : c.IsStubborn → c'.isRunning = true

theorem told_refl (c : Child) : Told c c :=
  ⟨rfl, rfl, id, And.left⟩

theorem Told.trans {c' c'' : Child} (h : Told c c') (h' : Told c' c'') : Told c c'' where
  pid := h'.pid.trans h.pid
  behaviour := h'.behaviour.trans h.behaviour
  running hrun := h.running (h'.running hrun)
  stubborn hstubborn := by
    refine h'.stubborn ⟨h.stubborn hstubborn, ?_⟩
    rw [h.behaviour, h.pid]
    exact hstubborn.2

theorem told_ask (hwatched : c.watched = true) (hsettled : c.elapse now = c)
    (hvalid : c.pid ≤ KillSwitch.maxPid) : Told c (c.ask now) := by
  have hlater := later_elapse now { c with signals := c.signals ++ [(now, .terminate)] }
  refine ⟨hlater.pid, hlater.behaviour, hlater.running, fun ⟨hrun, hwhy⟩ => ?_⟩
  exact isRunning_ask hrun hwatched hsettled (hwhy.resolve_right (Nat.not_lt.2 hvalid))

/-- A child that reacts at once does not outlast the moment at which it was asked. -/
theorem not_isRunning_of_asked {a : Nat} (hwatched : c.watched = true)
    (hsettled : c.elapse now = c) (ha : c.askedAt = some a) (hle : a ≤ now)
    (hreaction : c.behaviour.reaction = some 0) : c.isRunning = false := by
  rw [Bool.eq_false_iff]
  intro hrun
  have hreact := ((elapse_eq_self_iff hrun hwatched).1 hsettled).1.2 a ha 0 hreaction
  omega

end Child

/-! ## Child and switch -/

/-- What a switch tells about its child, both of the number `k`.  `gone` says that nobody
    can use the switch any more. -/
structure Child.TendedBy (now k : Nat) (gone : Prop) (c : Child) (sw : KillSwitch) : Prop where
  pid : c.pid = System.firstChildPid + k
  switch : c.switch = k
  watched : c.watched = true
  process : sw.process = some c.pid
  settled : c.elapse now = c
  past : ∀ a ∈ c.askedAt, a ≤ now
  unkilled : c.isRunning = true → ∀ t, (t, ChildSignal.kill) ∉ c.signals
  unused : sw.spent = false →
    c.askedAt = none ∧ (c.isRunning = true → ¬ gone → sw.mailbox = .waiting)
  used : sw.spent = true → c.isRunning = true → c.pid ≤ KillSwitch.maxPid →
    c.askedAt.isSome = true

namespace Child.TendedBy

variable {now now' k : Nat} {gone gone' : Prop} {c c' : Child} {sw sw' : KillSwitch}

/-- Time passes, or the child ends. -/
theorem later (h : TendedBy now k gone c sw) (hnow : now ≤ now') (hlater : Later c c')
    (hsettled : c'.elapse now' = c') : TendedBy now' k gone c' sw where
  pid := hlater.pid.trans h.pid
  switch := hlater.switch.trans h.switch
  watched := hlater.watched.trans h.watched
  process := by rw [hlater.pid, h.process]
  settled := hsettled
  past a ha := Nat.le_trans (h.past a (hlater.askedAt ▸ ha)) hnow
  unkilled hrun := by
    rw [hlater.signals hrun]
    exact h.unkilled (hlater.running hrun)
  unused hspent := by
    obtain ⟨hasked, hwaiting⟩ := h.unused hspent
    exact ⟨hlater.askedAt.trans hasked, fun hrun => hwaiting (hlater.running hrun)⟩
  used hspent hrun hpid := by
    rw [hlater.askedAt]
    exact h.used hspent (hlater.running hrun) (hlater.pid ▸ hpid)

/-- The watcher of a child that has ended goes away. -/
theorem dropReceiver (h : TendedBy now k gone c sw) (hended : c.isRunning = false) :
    TendedBy now k gone c sw.dropReceiver :=
  { h with
    unused := fun hspent => ⟨(h.unused hspent).1, fun hrun => by rw [hended] at hrun; cases hrun⟩
    used := fun _ hrun => by rw [hended] at hrun; cases hrun }

/-- The switch is used, and cannot reach the child. -/
theorem spend (h : TendedBy now k gone c sw) (hprocess : sw'.process = sw.process)
    (hspent : sw'.spent = true)
    (hout : sw.spent = true ∨ c.isRunning = false ∨ KillSwitch.maxPid < c.pid) :
    TendedBy now k gone c sw' := by
  refine { h with process := hprocess.trans h.process, unused := fun hunspent => ?_,
                  used := fun _ hrun hpid => ?_ }
  · rw [hspent] at hunspent
    cases hunspent
  · rcases hout with hused | hended | hlarge
    · exact h.used hused hrun hpid
    · rw [hended] at hrun
      cases hrun
    · omega

/-- The switch is used, and the child is asked to stop. -/
theorem ask (h : TendedBy now k gone c sw) (hprocess : sw'.process = sw.process)
    (hspent : sw'.spent = true) : TendedBy now k gone (c.ask now) sw' where
  pid := (later_elapse now _).pid.trans h.pid
  switch := (later_elapse now _).switch.trans h.switch
  watched := (later_elapse now _).watched.trans h.watched
  process := by
    have hpid : (c.ask now).pid = c.pid := (later_elapse now _).pid
    rw [hprocess, h.process, hpid]
  settled := elapse_elapse now _
  past a ha := by
    obtain hold | rfl := askedAt_ask_cases ha
    · exact h.past a hold
    · exact Nat.le_refl a
  unkilled hrun t hmem := by
    have hlater := later_elapse now { c with signals := c.signals ++ [(now, .terminate)] }
    rw [Child.ask, hlater.signals hrun] at hmem
    obtain hold | hnew := List.mem_append.1 hmem
    · exact h.unkilled (hlater.running hrun) t hold
    · cases List.mem_singleton.1 hnew
  unused hunspent := by
    rw [hspent] at hunspent
    cases hunspent
  used _ _ _ := by
    rw [askedAt_ask]
    rfl

/-- The last clone of the switch goes away. -/
theorem dropSender (h : TendedBy now k gone c sw) (hgone : gone') :
    TendedBy now k gone' c sw.dropSender :=
  { h with unused := fun hspent => ⟨(h.unused hspent).1, fun _ hnot => absurd hgone hnot⟩ }

theorem mono (h : TendedBy now k gone c sw) (hgone : gone → gone') : TendedBy now k gone' c sw :=
  { h with
    unused := fun hspent =>
      ⟨(h.unused hspent).1, fun hrun hnot => (h.unused hspent).2 hrun fun hg => hnot (hgone hg)⟩ }

end Child.TendedBy

namespace System

variable {s s' : System} {gone gone' : Nat → Prop} {id k : Nat} {c : Child} {sw : KillSwitch}

/-- Children and switches are pairs, and each child is tended.  `gone` picks the switches
    that nobody can use any more. -/
structure Tended (gone : Nat → Prop) (s : System) : Prop where
  count : s.switches.length = s.children.length
  pair : ∀ {k c sw}, s.children[k]? = some c → s.switch? k = some sw →
    c.TendedBy s.now k (gone k) sw

theorem Tended.init (hswitches : s.switches = []) (hchildren : s.children = []) :
    Tended gone s where
  count := by rw [hswitches, hchildren, List.length_nil, List.length_nil]
  pair hc := by simp [hchildren] at hc

theorem Tended.congr (h : Tended gone s) (hnow : s'.now = s.now)
    (hswitches : s'.switches = s.switches) (hchildren : s'.children = s.children) :
    Tended gone s' where
  count := by rw [hswitches, hchildren, h.count]
  pair hc hsw := by
    rw [hnow]
    rw [hchildren] at hc
    rw [switch?, hswitches] at hsw
    exact h.pair hc hsw

theorem Tended.mono (h : Tended gone s) (hgone : ∀ k, gone k → gone' k) : Tended gone' s where
  count := h.count
  pair hc hsw := (h.pair hc hsw).mono (hgone _)

theorem Tended.exists_switch (h : Tended gone s) (hc : s.children[k]? = some c) :
    ∃ sw, s.switch? k = some sw := by
  obtain ⟨hlt, -⟩ := List.getElem?_eq_some_iff.1 hc
  rw [← h.count] at hlt
  exact ⟨_, by rw [switch?, List.getElem?_eq_getElem hlt]; rfl⟩

theorem Tended.exists_child (h : Tended gone s) (hsw : s.switch? k = some sw) :
    ∃ c, s.children[k]? = some c := by
  have hlt := lt_of_switch? hsw
  rw [h.count] at hlt
  exact ⟨_, List.getElem?_eq_getElem hlt⟩

theorem Tended.exists_pair (h : Tended gone s) (hc : s.children[k]? = some c) :
    ∃ sw, s.switch? k = some sw ∧ c.TendedBy s.now k (gone k) sw := by
  obtain ⟨sw, hsw⟩ := h.exists_switch hc
  exact ⟨sw, hsw, h.pair hc hsw⟩

theorem Tended.pid_eq (h : Tended gone s) (hc : s.children[k]? = some c) :
    c.pid = firstChildPid + k := by
  obtain ⟨sw, -, hpair⟩ := h.exists_pair hc
  exact hpair.pid

/-! ### Watchers that go -/

theorem switch?_dropReceivers (cs : List Child) (s : System) (k : Nat) :
    (cs.foldl (fun s c => s.updateSwitch c.switch KillSwitch.dropReceiver) s).switch? k
      = (s.switch? k).map fun sw => if ∃ c ∈ cs, c.switch = k then sw.dropReceiver else sw := by
  induction cs generalizing s with
  | nil => simp
  | cons c cs ih =>
    rw [List.foldl_cons, ih, switch?_updateSwitch]
    by_cases hc : c.switch = k
    · rw [if_pos hc, Option.map_map]
      congr 1
      funext sw
      have hsome : ∃ c' ∈ c :: cs, c'.switch = k := ⟨c, List.mem_cons_self, hc⟩
      rw [Function.comp_apply, if_pos hsome]
      split <;> rfl
    · rw [if_neg hc]
      simp [hc]

/-- Only the switches of children that have ended lose their watchers. -/
theorem Tended.releaseWatchers (h : Tended gone s) : Tended gone s.releaseWatchers where
  count := by rw [(releaseWatchers_quiet s).switches, children_releaseWatchers, h.count]
  pair {k c sw} hc hsw := by
    obtain ⟨switches, heq⟩ := exists_releaseWatchers_eq s
    have hnow : s.releaseWatchers.now = s.now := by rw [heq]
    rw [children_releaseWatchers] at hc
    rw [hnow]
    rw [System.releaseWatchers, switch?_dropReceivers] at hsw
    obtain ⟨sw, hold, hpair⟩ := h.exists_pair hc
    rw [hold, Option.map_some, Option.some.injEq] at hsw
    subst hsw
    split
    · rename_i hdrop
      obtain ⟨c', hc', hswitch⟩ := hdrop
      obtain ⟨hmem, hended⟩ := List.mem_filter.1 hc'
      obtain ⟨j, hj⟩ := List.mem_iff_getElem?.1 hmem
      -- The child that has ended is this one.
      obtain ⟨sw', -, hother⟩ := h.exists_pair hj
      obtain rfl : j = k := hother.switch.symm.trans hswitch
      obtain rfl : c = c' := by
        rw [hj] at hc
        exact (Option.some.inj hc).symm
      exact hpair.dropReceiver (by simpa using hended)
    · exact hpair

/-! ### Time -/

theorem Tended.advanceTo (h : Tended gone s) (moment : Nat) : Tended gone (s.advanceTo moment) := by
  refine Tended.releaseWatchers ⟨?_, fun {k c sw} hc hsw => ?_⟩
  · rw [List.length_map]
    exact h.count
  · rw [List.getElem?_map] at hc
    obtain ⟨c, hbefore, rfl⟩ := Option.map_eq_some_iff.1 hc
    exact (h.pair hbefore hsw).later (Nat.le_max_left _ _) (Child.later_elapse _ c)
      (Child.elapse_elapse _ c)

theorem Tended.crash (h : Tended gone s) (pid : Nat) : Tended gone (s.crash pid) := by
  refine Tended.releaseWatchers ⟨?_, fun {k c sw} hc hsw => ?_⟩
  · rw [updateChild, List.length_map]
    exact h.count
  · rw [updateChild, List.getElem?_map] at hc
    obtain ⟨c, hbefore, rfl⟩ := Option.map_eq_some_iff.1 hc
    have hpair := h.pair hbefore hsw
    split
    · exact hpair.later (Nat.le_refl _) (Child.later_crash s.now c)
        (Child.elapse_crash s.now c hpair.settled)
    · exact hpair

/-! ### Switches that are used -/

/-- What becomes of a switch that is used: it is spent, and if no signal is sent, then
    none can be sent. -/
theorem Tended.trigger_switch (h : Tended gone s) (hgone : ¬ gone k) (hc : s.children[k]? = some c)
    (hsw : s.switch? k = some sw) :
    (sw.trigger s.deliver).switch.process = sw.process ∧
      ((sw.trigger s.deliver).signalled = some c.pid ∨
        (sw.trigger s.deliver).signalled = none ∧
          (sw.spent = true ∨ c.isRunning = false ∨ KillSwitch.maxPid < c.pid)) := by
  have hpair := h.pair hc hsw
  unfold KillSwitch.trigger
  split
  · rename_i hspent
    exact ⟨rfl, .inr ⟨rfl, .inl hspent⟩⟩
  rename_i hspent
  split
  · -- No watcher waits for the message, so that there is no child to be asked.
    rename_i hmail
    refine ⟨rfl, .inr ⟨rfl, .inr (.inl ?_)⟩⟩
    rw [Bool.eq_false_iff]
    exact fun hrun => hmail ((hpair.unused (by simpa using hspent)).2 hrun hgone)
  rw [hpair.process]
  simp only
  split
  · rename_i hinvalid
    have hpos : c.pid ≠ 0 := by
      rw [hpair.pid, firstChildPid]
      omega
    exact ⟨hpair.process, .inr ⟨rfl, .inr (.inr (hinvalid.resolve_left hpos))⟩⟩
  · split
    · exact ⟨hpair.process, .inl rfl⟩
    · exact ⟨hpair.process, .inl rfl⟩
    · exact ⟨hpair.process, .inl rfl⟩

/-- No two children have the same number. -/
theorem Tended.eq_of_pid (h : Tended gone s) {j : Nat} {c' : Child} (hc : s.children[k]? = some c)
    (hj : s.children[j]? = some c') (hpid : c'.pid = c.pid) : j = k := by
  rw [h.pid_eq hc, h.pid_eq hj] at hpid
  omega

theorem Tended.trigger (h : Tended gone s) (hgone : ¬ gone id) : Tended gone (s.trigger id).2 := by
  unfold System.trigger
  cases hsw : s.switch? id with
  | none => exact h
  | some sw =>
    obtain ⟨c, hc⟩ := h.exists_child hsw
    have hpair := h.pair hc hsw
    obtain ⟨hprocess, hsignal⟩ := h.trigger_switch hgone hc hsw
    have hspent := trigger_spent s.deliver sw
    let u := s.updateSwitch id fun _ => (sw.trigger s.deliver).switch
    have hcount : u.switches.length = s.children.length :=
      (List.length_modify _ _ _).trans h.count
    -- Child and switch of another number stay as they are.
    have hsame : u.switch? id = some (sw.trigger s.deliver).switch := by
      rw [switch?_updateSwitch, if_pos rfl, hsw]
      rfl
    have hothers (j : Nat) (hj : j ≠ id) : u.switch? j = s.switch? j := by
      rw [switch?_updateSwitch, if_neg (Ne.symm hj)]
    -- If a signal is sent, one child is asked; otherwise only the switch changes.
    rcases hsignal with hsent | ⟨hnone, hout⟩
    · simp only [hsent]
      refine Tended.releaseWatchers ⟨?_, fun {j c' sw'} hj hj' => ?_⟩
      · rw [updateChild, List.length_map]
        exact hcount
      · have hj' : u.switch? j = some sw' := hj'
        rw [updateChild, List.getElem?_map] at hj
        obtain ⟨c', hbefore, rfl⟩ := Option.map_eq_some_iff.1 hj
        by_cases heq : j = id
        · subst heq
          obtain rfl : c = c' := Option.some.inj (hc.symm.trans hbefore)
          obtain rfl : _ = sw' := Option.some.inj (hsame.symm.trans hj')
          rw [if_pos rfl]
          exact hpair.ask hprocess hspent
        · rw [hothers j heq] at hj'
          rw [if_neg fun hpid => heq (h.eq_of_pid hc hbefore hpid)]
          exact h.pair hbefore hj'
    · simp only [hnone]
      refine ⟨hcount, fun {j c' sw'} hj hj' => ?_⟩
      by_cases heq : j = id
      · subst heq
        obtain rfl : c = c' := Option.some.inj (hc.symm.trans hj)
        obtain rfl : _ = sw' := Option.some.inj (hsame.symm.trans hj')
        exact hpair.spend hprocess hspent hout
      · rw [hothers j heq] at hj'
        exact h.pair hj hj'

theorem Tended.triggerProcess {p : PluginProcess} (h : Tended gone s)
    (hgone : ∀ id, p.switch = some id → ¬ gone id) : Tended gone (s.triggerProcess p).2 := by
  unfold System.triggerProcess
  split
  · rename_i id hid
    exact h.trigger (hgone id hid)
  · exact h

theorem Tended.updatePool (h : Tended gone s) (i : Nat) (f : Pool → Pool) :
    Tended gone (s.updatePool i f) :=
  h.congr rfl rfl rfl

theorem Tended.kill {i : Nat} {name : String} (h : Tended gone s)
    (hgone : ∀ p id, (s.table i).get? name = some p → p.switch = some id → ¬ gone id) :
    Tended gone (s.kill i name).2 := by
  cases hp : (s.table i).get? name with
  | none =>
    rw [kill_of_get?_eq_none hp]
    exact h
  | some p =>
    rw [kill_of_get?_eq_some hp]
    exact (h.triggerProcess fun id => hgone p id hp).updatePool i _

/-- What is left in a table was there before. -/
theorem entry_of_kill {i : Nat} {name n : String} {p : PluginProcess}
    (hp : ((s.kill i name).2.table i).get? n = some p) : (s.table i).get? n = some p := by
  have hkill := kill_kills s i name
  by_cases hn : n = name
  · rw [hkill.gone n hn] at hp
    cases hp
  · rw [hkill.kept n hn] at hp
    exact hp

theorem Tended.killEach {i : Nat} {names : List String} (h : Tended gone s)
    (hgone : ∀ n p id, (s.table i).get? n = some p → p.switch = some id → ¬ gone id) :
    Tended gone (s.killEach i names).2 := by
  induction names generalizing s with
  | nil => exact h
  | cons name names ih =>
    rw [killEach_cons]
    exact ih (h.kill (hgone name)) fun n p id hp => hgone n p id (entry_of_kill hp)

theorem Tended.killAll {i : Nat} (h : Tended gone s)
    (hgone : ∀ n p id, (s.table i).get? n = some p → p.switch = some id → ¬ gone id) :
    Tended gone (s.killAll i).2 :=
  (h.killEach hgone).updatePool i _

theorem Tended.enter {i : Nat} {p : PluginProcess} (h : Tended gone s)
    (hgone : ∀ id, p.switch = some id → ¬ gone id) : Tended gone (s.enter i p).2 := by
  cases hr : s.isReady i p.name with
  | true =>
    rw [enter_of_ready hr]
    exact h.triggerProcess hgone
  | false =>
    rw [enter_of_not_ready hr]
    exact h.updatePool i _

/-! ### New children -/

/-- The child of a program that is started now. -/
def newChild (s : System) (behaviour : Behaviour) : Child where
  pid := firstChildPid + s.children.length
  switch := s.switches.length
  started := s.now
  behaviour

/-- The system with a program that was started now, and its switch. -/
def withProgram (s : System) (behaviour : Behaviour) : System :=
  { s with
    switches := s.switches ++
      [((s.newChild behaviour).pid, { process := (s.newChild behaviour).pid })]
    children := s.children ++ [(s.newChild behaviour).elapse s.now] }

/-- The process of a program that is started now. -/
def newProcess (s : System) (name : String) : PluginProcess where
  name
  pid := firstChildPid + s.children.length
  switch := some s.switches.length

theorem startProgram_of_ok {flag : String} {r : SpawnRequest} {behaviour : Behaviour}
    (h : s.programs s.storage r.command (r.commandLine flag) = .ok behaviour) :
    s.startProgram flag r
      = (.ok (s.newProcess r.name), (s.withProgram behaviour).releaseWatchers) := by
  rw [startProgram, h]
  rfl

theorem startProgram_of_error {flag : String} {r : SpawnRequest} {fault : IoFault}
    (h : s.programs s.storage r.command (r.commandLine flag) = .error fault) :
    s.startProgram flag r = (.error (.cannotStart r.name fault), s) := by
  rw [startProgram, h]

theorem Tended.newChild (h : Tended gone s) (behaviour : Behaviour) :
    Child.TendedBy s.now s.children.length (gone s.children.length)
      ((s.newChild behaviour).elapse s.now) { process := (s.newChild behaviour).pid } := by
  have hlater := Child.later_elapse s.now (s.newChild behaviour)
  have hasked : ((s.newChild behaviour).elapse s.now).askedAt = none := hlater.askedAt
  refine ⟨hlater.pid, hlater.switch.trans h.count, hlater.watched, congrArg some hlater.pid.symm,
    Child.elapse_elapse s.now _, fun a ha => ?_, fun hrun t => ?_,
    fun _ => ⟨hasked, fun _ _ => rfl⟩, fun hspent => by cases hspent⟩
  · rw [hasked] at ha
    cases ha
  · rw [hlater.signals hrun]
    exact List.not_mem_nil

/-- A program that is started has a child and a switch of the same number. -/
theorem Tended.withProgram (h : Tended gone s) (behaviour : Behaviour) :
    Tended gone (s.withProgram behaviour) where
  count := by simp [System.withProgram, h.count]
  pair {k c sw} hc hsw := by
    rw [System.withProgram] at hc
    rw [switch?, System.withProgram] at hsw
    rcases Nat.lt_trichotomy k s.children.length with hlt | rfl | hgt
    · rw [List.getElem?_append_left hlt] at hc
      rw [List.getElem?_append_left (h.count ▸ hlt)] at hsw
      exact h.pair hc hsw
    · rw [List.getElem?_concat_length, Option.some.injEq] at hc
      rw [← h.count, List.getElem?_concat_length, Option.map_some, Option.some.injEq] at hsw
      subst hc hsw
      exact h.newChild behaviour
    · have hend : (s.children ++ [(s.newChild behaviour).elapse s.now]).length ≤ k := by
        rw [List.length_append, List.length_singleton]
        omega
      rw [List.getElem?_eq_none hend] at hc
      cases hc

/-- Nobody has used the switch of a program that is started now. -/
theorem isSpent_withProgram (s : System) (behaviour : Behaviour) :
    (s.withProgram behaviour).isSpent s.switches.length = false := by
  rw [isSpent, switch?, System.withProgram, List.getElem?_concat_length]
  rfl

theorem Tended.asked (h : Tended gone s) (i : Nat) (r : SpawnRequest) : Tended gone (s.asked i r) :=
  h.congr rfl rfl rfl

/-! ### Starts that are given up -/

theorem giveUp_of_process? {l : Launch} {p : PluginProcess} (hl : l.process? = some p)
    (hid : p.switch = some id) : s.giveUp l = s.updateSwitch id KillSwitch.dropSender := by
  unfold Launch.process? at hl
  split at hl
  · rename_i q hout
    obtain rfl : q = p := Option.some.inj hl
    obtain ⟨name, pid, switch, stdout, stderr⟩ := q
    obtain rfl : switch = some id := hid
    rw [giveUp, hout]
  · cases hl

/-- Whoever gives up a start can use its switch no longer, and the watcher is not told. -/
theorem Tended.dropSender (h : Tended gone s) (id : Nat) :
    Tended (fun k => gone k ∨ k = id) (s.updateSwitch id KillSwitch.dropSender) where
  count := (List.length_modify _ _ _).trans h.count
  pair {k c sw} hc hsw := by
    rw [switch?_updateSwitch] at hsw
    have hc : s.children[k]? = some c := hc
    by_cases hk : id = k
    · rw [if_pos hk] at hsw
      obtain ⟨before, hbefore, rfl⟩ := Option.map_eq_some_iff.1 hsw
      exact (h.pair hc hbefore).dropSender (.inr hk.symm)
    · rw [if_neg hk] at hsw
      exact (h.pair hc hsw).mono .inl

/-! ### Children that are told -/

/-- What becomes of children when switches are used and no time passes: none is
    added, and those that go on for some time after they were told still run. -/
def Tells (s s' : System) : Prop :=
  ∀ k : Nat, Option.Rel Child.Told s.children[k]? s'.children[k]?

theorem Tells.refl (s : System) : Tells s s := by
  intro k
  cases s.children[k]? with
  | none => exact .none
  | some c => exact .some (Child.told_refl c)

theorem Tells.trans {s'' : System} (h : Tells s s') (h' : Tells s' s'') : Tells s s'' := by
  intro k
  have hk := h k
  have hk' := h' k
  generalize s.children[k]? = a at hk ⊢
  generalize s'.children[k]? = b at hk hk'
  generalize s''.children[k]? = d at hk' ⊢
  cases hk with
  | none =>
    cases hk' with
    | none => exact .none
  | some hc =>
    cases hk' with
    | some hc' => exact .some (hc.trans hc')

theorem tells_of_children (h : s'.children = s.children) : Tells s s' := by
  intro k
  rw [h]
  exact Tells.refl s k

/-- A signal is sent to nobody but the process of the switch, whose number is valid. -/
theorem of_trigger_signalled {send : Nat → Delivery} {pid : Nat}
    (h : (sw.trigger send).signalled = some pid) : pid ≤ KillSwitch.maxPid := by
  unfold KillSwitch.trigger at h
  split at h
  · cases h
  split at h
  · cases h
  split at h
  · cases h
  split at h
  · cases h
  · rename_i hvalid
    split at h <;> exact Option.some.inj h ▸ Nat.not_lt.1 (not_or.1 hvalid).2

theorem Tended.trigger_tells (h : Tended gone s) (id : Nat) : Tells s (s.trigger id).2 := by
  unfold System.trigger
  split
  · exact Tells.refl s
  · rename_i sw hsw
    simp only
    split
    · exact tells_of_children rfl
    · rename_i pid hpid
      have hvalid := of_trigger_signalled hpid
      intro k
      have hsame : (s.updateSwitch id fun _ => (sw.trigger s.deliver).switch).children[k]?
        = s.children[k]? := rfl
      rw [children_releaseWatchers, updateChild, List.getElem?_map, hsame]
      cases hc : s.children[k]? with
      | none => exact .none
      | some c =>
        obtain ⟨sw', -, hpair⟩ := h.exists_pair hc
        refine .some ?_
        dsimp only
        by_cases hthis : c.pid = pid
        · rw [if_pos hthis]
          exact Child.told_ask hpair.watched hpair.settled (hthis ▸ hvalid)
        · rw [if_neg hthis]
          exact Child.told_refl c

theorem Tended.kill_tells (h : Tended gone s) (i : Nat) (name : String) :
    Tells s (s.kill i name).2 := by
  cases hp : (s.table i).get? name with
  | none =>
    rw [kill_of_get?_eq_none hp]
    exact Tells.refl s
  | some p =>
    rw [kill_of_get?_eq_some hp]
    refine Tells.trans ?_ (tells_of_children (s := (s.triggerProcess p).2) rfl)
    unfold System.triggerProcess
    split
    · exact h.trigger_tells _
    · exact Tells.refl s

theorem Tended.killEach_tells {i : Nat} {names : List String} (h : Tended gone s)
    (hgone : ∀ n p id, (s.table i).get? n = some p → p.switch = some id → ¬ gone id) :
    Tells s (s.killEach i names).2 := by
  induction names generalizing s with
  | nil => exact Tells.refl s
  | cons name names ih =>
    rw [killEach_cons]
    exact (h.kill_tells i name).trans
      (ih (h.kill (hgone name)) fun n p id hp => hgone n p id (entry_of_kill hp))

theorem Tended.killAll_tells {i : Nat} (h : Tended gone s)
    (hgone : ∀ n p id, (s.table i).get? n = some p → p.switch = some id → ¬ gone id) :
    Tells s (s.killAll i).2 :=
  (h.killEach_tells hgone).trans (tells_of_children rfl)

end System

end PluginHost
