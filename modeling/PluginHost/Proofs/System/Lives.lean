/-
  PluginHost.Proofs.System.Lives

  The children of a system, and their lives.  A system keeps no account of what watchers
  do: it brings a child up to a moment at once, by its behaviour and the watcher's
  patience.  Here this is shown to be one of the lives that the child could have led
  next to its watcher.

    * `History history s` — the system has come of one without children, and `history`
      has what was done, each deed with its moment.
    * `Lived asked now gone c sw` — the child `c` with the switch `sw` has had a life up to
      now, and `asked` are the moments at which a trigger has answered yes.

  Whatever is done to a system is a deed, or several; and what one deed makes of a
  child, a few acts make of its life (`Lives.deed`).  So what is known of lives is known
  of all children of hosts at work (`child_lifecycle`).
-/
import PluginHost.Proofs.Household
import PluginHost.Proofs.Process.Life

namespace PluginHost

/-! ## What is due -/

/-- A child goes on, or what is due first comes first. -/
theorem Child.elapse_due {c : Child} (hrun : c.isRunning = true) (moment : Nat) :
    (c.elapse moment = c ∧ ∀ k ∈ c.killDue, moment < k) ∨
      (∃ e ∈ c.endDue, e ≤ moment ∧ (∀ k ∈ c.killDue, e ≤ k) ∧ c.elapse moment = c.endAt e) ∨
      ∃ k ∈ c.killDue, k ≤ moment ∧ c.elapse moment = c.killAt k := by
  have hnone {o : Option Nat} (h : o.filter (· ≤ moment) = none) : ∀ k ∈ o, moment < k := by
    intro k hk
    rw [Option.filter_eq_none_iff] at h
    simpa using h k hk
  have hsome {o : Option Nat} {k : Nat} (h : o.filter (· ≤ moment) = some k) :
      k ∈ o ∧ k ≤ moment := by
    simpa [Option.filter_eq_some_iff] using h
  unfold elapse
  rw [hrun]
  cases he : c.endDue.filter (· ≤ moment) with
  | none =>
    cases hk : c.killDue.filter (· ≤ moment) with
    | none => exact .inl ⟨rfl, hnone hk⟩
    | some k => exact .inr (.inr ⟨k, (hsome hk).1, (hsome hk).2, rfl⟩)
  | some e =>
    cases hk : c.killDue.filter (· ≤ moment) with
    | none =>
      refine .inr (.inl ⟨e, (hsome he).1, (hsome he).2, fun k hk' => ?_, rfl⟩)
      exact Nat.le_trans (hsome he).2 (Nat.le_of_lt (hnone hk k hk'))
    | some k =>
      by_cases hle : e ≤ k
      · refine .inr (.inl ⟨e, (hsome he).1, (hsome he).2, fun k' hk' => ?_, if_pos hle⟩)
        obtain rfl : k = k' := Option.some.inj ((hsome hk).1.symm.trans hk')
        exact hle
      · exact .inr (.inr ⟨k, (hsome hk).1, (hsome hk).2, if_neg hle⟩)

theorem Child.le_endDue {c : Child} {now : Nat}
    (hlife : ∀ t ∈ c.behaviour.lifetime, now ≤ c.started + t)
    (hreact : ∀ a ∈ c.askedAt, ∀ t ∈ c.behaviour.reaction, now ≤ a + t) :
    ∀ e ∈ c.endDue, now ≤ e := by
  intro e he
  obtain rfl | hpos := Nat.eq_zero_or_pos now
  · exact Nat.zero_le e
  · have hbefore : ∀ e ∈ c.endDue, now - 1 < e := by
      refine Child.lt_endDue_iff.2 ⟨fun t ht => ?_, fun a ha t ht => ?_⟩
      · have hle := hlife t ht
        omega
      · have hle := hreact a ha t ht
        omega
    have hlt := hbefore e he
    omega

theorem Child.askedAt_signal {c : Child} {now : Nat} (h : c.askedAt = none) :
    (c.signal now .terminate).askedAt = some now := by
  rw [askedAt, Option.map_eq_none_iff] at h
  rw [askedAt, signal, List.find?_append, h]
  rfl

/-! ## A life that ends in a child -/

namespace Life

variable {asked : List Nat} {now moment : Nat} {gone gone' : Prop} {c : Child}
  {sw sw' : KillSwitch} {log : List (Nat × Act)} {l m : Life}

/-- What a child and its switch show of a life.  As long as the child runs, its switch
    must answer as the one in the life does. -/
structure Shows (now : Nat) (gone : Prop) (c : Child) (sw : KillSwitch) (l : Life) : Prop where
  now : l.now = now
  child : l.child = c
  rest : l.AtRest
  unkilled : l.watcher ≠ .killing
  spent : c.isRunning = true → l.shared.switch.spent = sw.spent
  waiting : c.isRunning = true → (l.shared.switch.mailbox = .waiting ↔ sw.mailbox = .waiting)
  clone : ¬ gone → l.shared.clones = [0]

/-- A child has had a life up to now. -/
def Lived (asked : List Nat) (now : Nat) (gone : Prop) (c : Child) (sw : KillSwitch) : Prop :=
  ∃ log l, Run (begin c) log l ∧ asks log = asked ∧ l.Shows now gone c sw

/-- A program that was just started. -/
theorem lived_begin (hnew : c.newborn = c) (hsw : sw = { process := some c.pid }) :
    Lived [] c.started gone c sw := by
  have hrunning : (begin c).child.isRunning = true := rfl
  refine ⟨[], begin c, .nil, rfl, rfl, hnew, .inr ⟨hrunning, fun _ => rfl, nofun⟩, nofun,
    fun _ => ?_, fun _ => ?_, fun _ => rfl⟩
  · rw [hsw]
    rfl
  · rw [hsw]
    exact Iff.rfl

/-- A watcher at rest is patient exactly if the child was asked to stop. -/
theorem Shows.watcher (h : l.Shows now gone c sw) (inv : Inv log l) (hrun : c.isRunning = true) :
    (c.askedAt = none ∧ ∀ deadline, l.watcher ≠ .patient deadline) ∨
      ∃ t, c.askedAt = some t ∧ l.watcher = .patient (t + Child.patience) := by
  obtain rfl := h.child
  have hrest := h.rest
  have hkill := h.unkilled
  have hdone := inv.not_done hrun
  have hchapter := inv.chapter
  have hmailbox : l.watcher = .selecting → l.shared.switch.mailbox = .waiting :=
    (hrest.resolve_left hdone).2.1
  rw [Child.askedAt]
  generalize l.watcher = w, l.shared.switch.mailbox = mailbox, asks log = before,
    l.child.signals = signals, l.child.ended = ended at hchapter hkill hdone hmailbox ⊢
  cases hchapter with
  | waiting => exact .inl ⟨rfl, by simp⟩
  | told => cases hmailbox rfl
  | mute => cases hmailbox rfl
  | deaf => exact .inl ⟨rfl, by simp⟩
  | @patient t => exact .inr ⟨t, rfl, rfl⟩
  | killing => exact absurd rfl hkill
  | untold => exact absurd rfl hdone
  | obeyed => exact absurd rfl hdone
  | killed => exact absurd rfl hdone

/-- The watcher of a life that goes on can wait as long as its patience lasts. -/
theorem Shows.wait (h : l.Shows now gone c sw) (hl : Run (begin c) log l) (hle : now ≤ moment)
    (hd : c.isRunning = true → ∀ t ∈ c.askedAt, moment ≤ t + Child.patience) :
    Moves (.wait moment) l { l with now := moment } := by
  refine .wait h.rest (h.now ▸ hle) fun deadline hw => ?_
  have hrun : c.isRunning = true := by
    obtain hdone | ⟨hrun, -⟩ := h.rest
    · rw [hdone] at hw
      cases hw
    · exact h.child ▸ hrun
  obtain ⟨-, hnot⟩ | ⟨t, ht, hw'⟩ := h.watcher hl.inv hrun
  · exact absurd hw (hnot deadline)
  · obtain rfl := Watcher.patient.inj (hw'.symm.trans hw)
    exact hd hrun t ht

/-- Time passes, and the watcher has nothing to do even then. -/
theorem Lived.wait (h : Lived asked now gone c sw) (hle : now ≤ moment)
    (hd : c.isRunning = true → ∀ t ∈ c.askedAt, moment < t + Child.patience) :
    Lived asked moment gone c sw := by
  obtain ⟨log, l, hl, hasks, hshows⟩ := h
  have hmove := hshows.wait hl hle fun hrun t ht => Nat.le_of_lt (hd hrun t ht)
  refine ⟨_, _, hl.snoc hmove, (asks_snoc_of_not rfl).trans hasks,
    { hshows with now := rfl, rest := ?_ }⟩
  obtain hdone | ⟨hrun, hwaiting, -⟩ := hshows.rest
  · exact .inl hdone
  · refine .inr ⟨hrun, hwaiting, fun deadline hw => ?_⟩
    have hrun : c.isRunning = true := hshows.child ▸ hrun
    obtain ⟨-, hnot⟩ | ⟨t, ht, hw'⟩ := hshows.watcher hl.inv hrun
    · exact absurd hw (hnot deadline)
    · obtain rfl := Watcher.patient.inj (hw'.symm.trans hw)
      exact hd hrun t ht

/-- A child whose life is over shows nothing of its switch. -/
theorem shows_of_done (hnow : l.now = now) (hchild : l.child = c) (hw : l.watcher = .done)
    (hended : c.isRunning = false) (hclone : ¬ gone → l.shared.clones = [0]) :
    l.Shows now gone c sw := by
  have hnot : c.isRunning ≠ true := by
    rw [hended]
    exact Bool.false_ne_true
  refine ⟨hnow, hchild, .inl hw, ?_, fun hrun => absurd hrun hnot, fun hrun => absurd hrun hnot,
    hclone⟩
  rw [hw]
  nofun

/-- The child ends at a moment at which the watcher has not killed it yet, and is reaped. -/
theorem Lived.endAt (h : Lived asked now gone c sw) (hrun : c.isRunning = true)
    (hle : now ≤ moment) (hd : ∀ t ∈ c.askedAt, moment ≤ t + Child.patience) :
    Lived asked moment gone (c.endAt moment) sw' := by
  obtain ⟨log, l, hl, hasks, hshows⟩ := h
  have hwait := hl.snoc (hshows.wait hl hle fun _ => hd)
  obtain rfl := hshows.child
  have hexit := hwait.snoc (.exit hrun)
  have hreap := hexit.snoc (.reap (hl.inv.not_done hrun) rfl)
  refine ⟨_, _, hreap, ?_, shows_of_done rfl rfl rfl rfl hshows.clone⟩
  rw [asks_snoc_of_not rfl, asks_snoc_of_not rfl, asks_snoc_of_not rfl, hasks]

/-- The watcher loses its patience, and the child does not outlast that. -/
theorem Lived.killAt {t : Nat} (h : Lived asked now gone c sw) (hrun : c.isRunning = true)
    (ht : c.askedAt = some t) :
    Lived asked (t + Child.patience) gone (c.killAt (t + Child.patience)) sw' := by
  obtain ⟨log, l, hl, hasks, hshows⟩ := h
  obtain ⟨hnone, -⟩ | ⟨t', ht', hw⟩ := hshows.watcher hl.inv hrun
  · rw [ht] at hnone
    cases hnone
  obtain rfl : t = t' := Option.some.inj (ht.symm.trans ht')
  have hlt : l.now < t + Child.patience := by
    obtain hdone | ⟨-, -, hlt⟩ := hshows.rest
    · rw [hw] at hdone
      cases hdone
    · exact hlt _ hw
  have hle : now ≤ t + Child.patience := hshows.now ▸ Nat.le_of_lt hlt
  have hwait := hl.snoc (hshows.wait hl hle fun _ t' ht' => by
    obtain rfl : t = t' := Option.some.inj (ht.symm.trans ht')
    exact Nat.le_refl _)
  obtain rfl := hshows.child
  have hkill := hwait.snoc (.kill hw (Nat.le_refl _) hrun)
  have hexit := hkill.snoc (.exit hrun)
  have hreap := hexit.snoc (.reap nofun rfl)
  refine ⟨_, _, hreap, ?_, shows_of_done rfl rfl rfl rfl hshows.clone⟩
  rw [asks_snoc_of_not rfl, asks_snoc_of_not rfl, asks_snoc_of_not rfl, asks_snoc_of_not rfl, hasks]

/-- A child is brought up to a moment: it goes on, or it ends on its way there. -/
theorem Lived.elapse (h : Lived asked now gone c sw) (hle : now ≤ moment)
    (hwatched : c.watched = true) (hdue : c.isRunning = true → ∀ e ∈ c.endDue, now ≤ e) :
    Lived asked moment gone (c.elapse moment) sw := by
  cases hrun : c.isRunning with
  | false =>
    rw [Child.elapse_of_ended hrun]
    exact h.wait hle (by simp [hrun])
  | true =>
    have hkill {t : Nat} (ht : t ∈ c.askedAt) : t + Child.patience ∈ c.killDue := by
      rw [Child.killDue, hwatched, if_pos rfl, ht]
      rfl
    obtain ⟨hsame, hlater⟩ | ⟨e, he, hle', hfirst, hend⟩ | ⟨k, hk, hle', hkilled⟩ :=
      Child.elapse_due hrun moment
    · rw [hsame]
      exact h.wait hle fun _ t ht => hlater _ (hkill ht)
    · rw [hend]
      have hlived : Lived asked e gone (c.endAt e) sw :=
        h.endAt hrun (hdue hrun e he) fun t ht => hfirst _ (hkill ht)
      exact hlived.wait hle' (by simp [Child.isRunning, Child.endAt])
    · rw [hkilled]
      rw [Child.killDue, hwatched, if_pos rfl] at hk
      obtain ⟨t, ht, rfl⟩ := Option.map_eq_some_iff.1 hk
      have hlived : Lived asked (t + Child.patience) gone (c.killAt (t + Child.patience)) sw :=
        h.killAt hrun ht
      exact hlived.wait hle' (by simp [Child.isRunning, Child.killAt])

/-- Whatever is done with the switch of a child that has ended, its life shows nothing of
    it. -/
theorem Lived.ended (h : Lived asked now gone c sw) (hended : c.isRunning = false)
    (hgone : gone → gone') : Lived asked now gone' c sw' := by
  obtain ⟨log, l, hl, hasks, hshows⟩ := h
  have hdone : l.watcher = .done := by
    obtain hdone | ⟨hrun, -⟩ := hshows.rest
    · exact hdone
    · rw [hshows.child, hended] at hrun
      cases hrun
  exact ⟨log, l, hl, hasks, shows_of_done hshows.now hshows.child hdone hended
    fun hnot => hshows.clone fun hg => hnot (hgone hg)⟩

theorem Lived.mono (h : Lived asked now gone c sw) (hgone : gone → gone') :
    Lived asked now gone' c sw := by
  obtain ⟨log, l, hl, hasks, hshows⟩ := h
  exact ⟨log, l, hl, hasks,
    { hshows with clone := fun hnot => hshows.clone fun hg => hnot (hgone hg) }⟩

theorem Lived.crash (h : Lived asked now gone c sw) (hwatched : c.watched = true)
    (hsettled : c.elapse now = c) : Lived asked now gone (c.crash now) sw := by
  unfold Child.crash
  split
  · rename_i hrun
    have hpatience := ((Child.elapse_eq_self_iff hrun hwatched).1 hsettled).2
    exact h.endAt hrun (Nat.le_refl now) fun t ht => Nat.le_of_lt (hpatience t ht)
  · exact h

/-- A child that has not been asked, whose switch is armed. -/
theorem Shows.armed (h : l.Shows now gone c sw) (hrun : c.isRunning = true) (harmed : sw.IsArmed) :
    l.shared.switch.IsArmed :=
  ⟨(h.spent hrun).trans harmed.1, (h.waiting hrun).2 harmed.2⟩

theorem Inv.selecting_of_waiting (inv : Inv log l) (h : l.shared.switch.mailbox = .waiting) :
    l.watcher = .selecting := by
  have hchapter := inv.chapter
  rw [h] at hchapter
  generalize l.watcher = w, asks log = before, l.child.signals = signals,
    l.child.ended = ended at hchapter ⊢
  cases hchapter
  rfl

/-- The switch is triggered, and the child gets its signal and the watcher its message. -/
theorem Lived.ask (h : Lived asked now gone c sw) (hrun : c.isRunning = true)
    (hwatched : c.watched = true) (hsettled : c.elapse now = c) (hunasked : c.askedAt = none)
    (harmed : sw.IsArmed) (hgone : ¬ gone) (hpid : KillSwitch.IsValid c.pid) :
    Lived (asked ++ [now]) now gone (c.ask now) sw.tell := by
  have hsignal : Lived (asked ++ [now]) now gone (c.signal now .terminate) sw.tell := by
    obtain ⟨log, l, hl, hasks, hshows⟩ := h
    have hclone := hshows.clone hgone
    have harmed' := hshows.armed hrun harmed
    have hw := hl.inv.selecting_of_waiting harmed'.2
    obtain rfl := hshows.child
    obtain rfl := hshows.now
    have hzero : 0 ∈ l.shared.clones := by simp [hclone]
    have hmove := Moves.use (l := l) rfl (KillSwitch.Moves.trigger hzero .delivered)
    rw [KillSwitch.trigger_of_valid harmed' hl.inv.process hpid] at hmove
    have htold := hl.snoc hmove
    have hheard := htold.snoc (.hear hw rfl)
    refine ⟨_, _, hheard, ?_, rfl, rfl, .inr ⟨hrun, nofun, fun deadline hd => ?_⟩, nofun,
      fun _ => rfl, fun _ => ?_, fun _ => hclone⟩
    · rw [asks_snoc_of_not rfl, asks_snoc, hasks]
      rfl
    · obtain rfl := Watcher.patient.inj hd
      exact Nat.lt_add_of_pos_right (by decide)
    · simp [KillSwitch.dropReceiver, KillSwitch.tell]
  -- What the child does about it comes after that, though perhaps at the same moment.
  refine hsignal.elapse (Nat.le_refl now) hwatched fun _ => ?_
  obtain ⟨⟨hlife, -⟩, -⟩ := (Child.elapse_eq_self_iff hrun hwatched).1 hsettled
  refine Child.le_endDue (fun t ht => Nat.le_of_lt (hlife t ht)) fun a ha t _ => ?_
  rw [Child.askedAt_signal hunasked] at ha
  obtain rfl := Option.some.inj ha
  exact Nat.le_add_right _ _

/-- The switch can tell the watcher nothing any more, which goes on waiting for the end of
    the child. -/
theorem Run.missed {y : KillSwitch.Shared} {a : KillSwitch.Act} (hl : Run (begin c) log l)
    (hw : l.watcher = .selecting) (hrun : l.child.isRunning = true) (huse : a.isUse = true)
    (htells : a.tells = false) (hdelivers : a.delivers = false)
    (hmove : KillSwitch.Moves a l.shared y) (hover : y.switch.mailbox = .over) :
    ∃ log', Run (begin c) log' { l with shared := y, watcher := .deaf } ∧
      asks log' = asks log ∧ AtRest { l with shared := y, watcher := .deaf } := by
  have hused := Moves.use (l := l) huse hmove
  rw [hdelivers, if_neg Bool.false_ne_true] at hused
  have hmissed := (hl.snoc hused).snoc (.miss hw ((KillSwitch.receive_eq_closed_iff _).2 hover))
  refine ⟨_, hmissed, ?_, .inr ⟨hrun, nofun, nofun⟩⟩
  rw [asks_snoc_of_not rfl, asks_snoc_of_not (a := .use a) htells]

/-- The switch is triggered, but no signal can be sent to a number like that. -/
theorem Lived.spend (h : Lived asked now gone c sw) (hrun : c.isRunning = true)
    (harmed : sw.IsArmed) (hgone : ¬ gone) (hpid : ¬ KillSwitch.IsValid c.pid) :
    Lived asked now gone c sw.spend := by
  obtain ⟨log, l, hl, hasks, hshows⟩ := h
  have hclone := hshows.clone hgone
  have harmed' := hshows.armed hrun harmed
  have hw := hl.inv.selecting_of_waiting harmed'.2
  obtain rfl := hshows.child
  have hzero : 0 ∈ l.shared.clones := by simp [hclone]
  have hmove := KillSwitch.Moves.trigger hzero .delivered
  rw [KillSwitch.trigger_of_not_valid harmed' hl.inv.process hpid] at hmove
  obtain ⟨log', hl', hasks', hrest⟩ := hl.missed hw hrun rfl rfl rfl hmove
    (by simp [KillSwitch.spend, harmed'.2])
  refine ⟨log', _, hl', hasks'.trans hasks, hshows.now, rfl, hrest, by simp, fun _ => rfl,
    fun _ => ?_, fun _ => hclone⟩
  simp [KillSwitch.spend, harmed'.2, harmed.2]

/-- The last clone of the switch goes. -/
theorem Lived.dropSender (h : Lived asked now gone c sw) (hgone : ¬ gone) (hgone' : gone') :
    Lived asked now gone' c sw.dropSender := by
  cases hrun : c.isRunning with
  | false => exact h.ended hrun fun _ => hgone'
  | true =>
    obtain ⟨log, l, hl, hasks, hshows⟩ := h
    have hclone := hshows.clone hgone
    obtain rfl := hshows.child
    have hzero : 0 ∈ l.shared.clones := by simp [hclone]
    have hmove := KillSwitch.Moves.dropClone hzero
    rw [if_pos (by simp [hclone])] at hmove
    have hspent := hshows.spent hrun
    have hiff := hshows.waiting hrun
    by_cases hmail : l.shared.switch.mailbox = .waiting
    · -- The watcher sees it.
      have hw := hl.inv.selecting_of_waiting hmail
      obtain ⟨log', hl', hasks', hrest⟩ := hl.missed hw hrun rfl rfl rfl hmove
        (by simp [KillSwitch.dropSender, hmail])
      refine ⟨log', _, hl', hasks'.trans hasks, hshows.now, rfl, hrest, by simp, fun _ => hspent,
        fun _ => ?_, fun hnot => absurd hgone' hnot⟩
      simp [KillSwitch.dropSender, hmail, hiff.1 hmail]
    · have hused := Moves.use (l := l) rfl hmove
      have hsame : l.shared.switch.dropSender = l.shared.switch := by
        rw [KillSwitch.dropSender]
        split
        · contradiction
        · rfl
      rw [hsame] at hused
      refine ⟨_, _, hl.snoc hused, (asks_snoc_of_not rfl).trans hasks, hshows.now, rfl, ?_,
        hshows.unkilled, fun _ => hspent, fun _ => ?_, fun hnot => absurd hgone' hnot⟩
      · obtain hdone | hrest := hshows.rest
        · exact .inl hdone
        · exact .inr hrest
      · refine ⟨fun hwaiting => absurd hwaiting hmail, fun hwaiting => ?_⟩
        cases hm : sw.mailbox <;> simp [KillSwitch.dropSender, hm] at hwaiting

end Life

/-! ## All children of a system -/

namespace System

variable {asked asked' : Nat → List Nat} {gone gone' : Nat → Prop} {s s' : System} {k id : Nat}
  {c : Child} {sw : KillSwitch}

/-- Every child of a system has had a life up to now, and the switch of one that has ended
    has no watcher any more. -/
structure Lives (asked : Nat → List Nat) (gone : Nat → Prop) (s : System) : Prop where
  lived : ∀ {k c sw}, s.children[k]? = some c → s.switch? k = some sw →
    Life.Lived (asked k) s.now (gone k) c sw
  reaped : ∀ {k c sw}, s.children[k]? = some c → s.switch? k = some sw →
    c.isRunning = false → sw.mailbox = .gone

theorem Lives.init (hchildren : s.children = []) : Lives asked gone s where
  lived hc := by simp [hchildren] at hc
  reaped hc := by simp [hchildren] at hc

theorem Lives.congr (h : Lives asked gone s) (hnow : s'.now = s.now)
    (hswitches : s'.switches = s.switches) (hchildren : s'.children = s.children) :
    Lives asked gone s' where
  lived hc hsw := by
    rw [hnow]
    rw [hchildren] at hc
    rw [switch?, hswitches] at hsw
    exact h.lived hc hsw
  reaped hc hsw := by
    rw [hchildren] at hc
    rw [switch?, hswitches] at hsw
    exact h.reaped hc hsw

theorem Lives.mono (h : Lives asked gone s) (hgone : ∀ k, gone k → gone' k) :
    Lives asked gone' s where
  lived hc hsw := (h.lived hc hsw).mono (hgone _)
  reaped := h.reaped

theorem Tended.switch_eq (h : Tended gone s) (hc : s.children[k]? = some c) : c.switch = k := by
  obtain ⟨sw, -, hpair⟩ := h.exists_pair hc
  exact hpair.switch

/-- The watchers of children that have ended go. -/
theorem Lives.of_lived
    (hswitch : ∀ {k : Nat} {c : Child}, s.children[k]? = some c → c.switch = k)
    (hlived : ∀ {k : Nat} {c : Child} {sw : KillSwitch}, s.children[k]? = some c →
      s.switch? k = some sw → Life.Lived (asked k) s.now (gone k) c sw) :
    Lives asked gone s.releaseWatchers := by
  obtain ⟨switches, heq⟩ := exists_releaseWatchers_eq s
  have hnow : s.releaseWatchers.now = s.now := by rw [heq]
  -- A switch loses its watcher exactly if its child has ended.
  have hpair {k : Nat} {c : Child} {sw : KillSwitch} (hc : s.children[k]? = some c)
      (hsw : s.releaseWatchers.switch? k = some sw) :
      ∃ before, s.switch? k = some before ∧
        sw = if c.isRunning = false then before.dropReceiver else before := by
    rw [releaseWatchers, switch?_dropReceivers] at hsw
    obtain ⟨before, hbefore, rfl⟩ := Option.map_eq_some_iff.1 hsw
    refine ⟨before, hbefore, if_congr ⟨?_, fun hended => ?_⟩ rfl rfl⟩
    · rintro ⟨d, hd, hdk⟩
      obtain ⟨hmem, hended⟩ := List.mem_filter.1 hd
      obtain ⟨j, hj⟩ := List.mem_iff_getElem?.1 hmem
      obtain rfl : j = k := (hswitch hj).symm.trans hdk
      obtain rfl : c = d := Option.some.inj (hc.symm.trans hj)
      simpa using hended
    · exact ⟨c, List.mem_filter.2 ⟨List.mem_of_getElem? hc, by simp [hended]⟩, hswitch hc⟩
  constructor
  · intro k c sw hc hsw
    rw [children_releaseWatchers] at hc
    rw [hnow]
    obtain ⟨before, hbefore, rfl⟩ := hpair hc hsw
    split
    · rename_i hended
      exact (hlived hc hbefore).ended hended id
    · exact hlived hc hbefore
  · intro k c sw hc hsw hended
    rw [children_releaseWatchers] at hc
    obtain ⟨before, -, rfl⟩ := hpair hc hsw
    rw [if_pos hended]
    rfl

/-! ### Deeds -/

/-- What is done to a system, as far as its children go. -/
inductive Deed where
  /-- A program is started. -/
  | start (behaviour : Behaviour)
  /-- Time passes up to a moment. -/
  | pass (moment : Nat)
  /-- A program is ended by somebody else. -/
  | crash (pid : Nat)
  /-- A switch is triggered. -/
  | trigger (id : Nat) (answer : Except SignalFault Bool)
  /-- The last clone of a switch goes. -/
  | release (id : Nat)
  /-- Something is done that concerns no child. -/
  | aside

/-- What one deed makes of a system.  `gone` picks the switches that nobody can use. -/
inductive Does (gone : Nat → Prop) (s : System) : Deed → System → Prop
  | start (behaviour : Behaviour) :
      Does gone s (.start behaviour) (s.withProgram behaviour).releaseWatchers
  | pass (moment : Nat) : Does gone s (.pass moment) (s.advanceTo moment)
  | crash (pid : Nat) : Does gone s (.crash pid) (s.crash pid)
  | trigger {id : Nat} (h : ¬ gone id) : Does gone s (.trigger id (s.trigger id).1) (s.trigger id).2
  | release {id : Nat} (h : ¬ gone id) :
      Does gone s (.release id) (s.updateSwitch id KillSwitch.dropSender)
  | aside {s' : System} (hnow : s'.now = s.now) (hswitches : s'.switches = s.switches)
      (hchildren : s'.children = s.children) : Does gone s .aside s'

/-- Whether the trigger of a switch answers yes. -/
def Deed.asks (k : Nat) : Deed → Bool
  | .trigger id (.ok true) => id = k
  | _ => false

theorem Deed.asks_eq_true_iff {e : Deed} : e.asks k = true ↔ e = .trigger k (.ok true) := by
  unfold asks
  constructor
  · intro h
    split at h
    · rw [of_decide_eq_true h]
    · cases h
  · rintro rfl
    exact decide_eq_true rfl

theorem Deed.asks_trigger_of_ne {answer : Except SignalFault Bool} (h : k ≠ id) :
    (Deed.trigger id answer).asks k = false := by
  rw [Bool.eq_false_iff]
  intro hasks
  obtain ⟨heq, -⟩ := Deed.trigger.inj (asks_eq_true_iff.1 hasks)
  exact h heq.symm

theorem Tended.does (h : Tended gone s) {e : Deed} (hd : Does gone s e s') :
    Tended (fun k => gone k ∨ e = .release k) s' := by
  cases hd with
  | start behaviour => exact ((h.withProgram behaviour).releaseWatchers).mono fun _ => .inl
  | pass moment => exact (h.advanceTo moment).mono fun _ => .inl
  | crash pid => exact (h.crash pid).mono fun _ => .inl
  | trigger hgone => exact (h.trigger hgone).mono fun _ => .inl
  | @release id hgone =>
    refine (h.dropSender id).mono fun k hk => ?_
    obtain hk | rfl := hk
    · exact .inl hk
    · exact .inr rfl
  | aside hnow hswitches hchildren => exact (h.congr hnow hswitches hchildren).mono fun _ => .inl

theorem Lives.advanceTo (h : Lives asked gone s) (ht : Tended gone s) (moment : Nat) :
    Lives asked gone (s.advanceTo moment) := by
  refine Lives.of_lived (fun {k c} hc => ?_) fun {k c sw} hc hsw => ?_
  all_goals
    rw [List.getElem?_map] at hc
    obtain ⟨c, hbefore, rfl⟩ := Option.map_eq_some_iff.1 hc
    obtain ⟨before, hsw', hpair⟩ := ht.exists_pair hbefore
  · exact (Child.later_elapse _ c).switch.trans hpair.switch
  · obtain rfl : before = sw := Option.some.inj (hsw'.symm.trans hsw)
    refine (h.lived hbefore hsw).elapse (Nat.le_max_left _ _) hpair.watched fun hrun e he => ?_
    obtain ⟨hdue, -⟩ := (Child.elapse_eq_self_iff hrun hpair.watched).1 hpair.settled
    exact Nat.le_of_lt (Child.lt_endDue_iff.2 hdue e he)

theorem Lives.crash (h : Lives asked gone s) (ht : Tended gone s) (pid : Nat) :
    Lives asked gone (s.crash pid) := by
  refine Lives.of_lived (fun {k c} hc => ?_) fun {k c sw} hc hsw => ?_
  all_goals
    rw [updateChild, List.getElem?_map] at hc
    obtain ⟨c, hbefore, rfl⟩ := Option.map_eq_some_iff.1 hc
    obtain ⟨before, hsw', hpair⟩ := ht.exists_pair hbefore
  · split
    · exact (Child.later_crash _ c).switch.trans hpair.switch
    · exact hpair.switch
  · obtain rfl : before = sw := Option.some.inj (hsw'.symm.trans hsw)
    split
    · exact (h.lived hbefore hsw).crash hpair.watched hpair.settled
    · exact h.lived hbefore hsw

theorem Lives.dropSender (h : Lives asked gone s) (hgone : ¬ gone id) :
    Lives asked (fun k => gone k ∨ k = id) (s.updateSwitch id KillSwitch.dropSender) := by
  refine ⟨fun {k c sw} hc hsw => ?_, fun {k c sw} hc hsw hended => ?_⟩
  all_goals
    have hc : s.children[k]? = some c := hc
    rw [switch?_updateSwitch] at hsw
  · by_cases hk : id = k
    · rw [if_pos hk] at hsw
      obtain ⟨before, hbefore, rfl⟩ := Option.map_eq_some_iff.1 hsw
      subst hk
      exact (h.lived hc hbefore).dropSender hgone (.inr rfl)
    · rw [if_neg hk] at hsw
      exact (h.lived hc hsw).mono .inl
  · by_cases hk : id = k
    · rw [if_pos hk] at hsw
      obtain ⟨before, hbefore, rfl⟩ := Option.map_eq_some_iff.1 hsw
      simp [KillSwitch.dropSender, h.reaped hc hbefore hended]
    · rw [if_neg hk] at hsw
      exact h.reaped hc hsw hended

/-- A new child begins its life, and may end it at once. -/
theorem Lives.start (h : Lives asked gone s) (ht : Tended gone s)
    (hasked : asked s.children.length = []) (behaviour : Behaviour) :
    Lives asked gone (s.withProgram behaviour).releaseWatchers := by
  have htended := ht.withProgram behaviour
  refine Lives.of_lived (fun hc => htended.switch_eq hc) fun {k c sw} hc hsw => ?_
  rw [System.withProgram] at hc
  rw [switch?, System.withProgram] at hsw
  rcases Nat.lt_trichotomy k s.children.length with hlt | rfl | hgt
  · rw [List.getElem?_append_left hlt] at hc
    rw [List.getElem?_append_left (ht.count ▸ hlt)] at hsw
    exact h.lived hc hsw
  · rw [List.getElem?_concat_length, Option.some.injEq] at hc
    rw [← ht.count, List.getElem?_concat_length, Option.map_some, Option.some.injEq] at hsw
    subst hc hsw
    have hbegin : Life.Lived [] s.now (gone s.children.length) (s.newChild behaviour)
        { process := (s.newChild behaviour).pid } := Life.lived_begin rfl rfl
    rw [hasked]
    refine hbegin.elapse (Nat.le_refl _) rfl fun _ => ?_
    exact Child.le_endDue (fun t _ => Nat.le_add_right _ _) (by simp [newChild, Child.askedAt])
  · have hend : (s.children ++ [(s.newChild behaviour).elapse s.now]).length ≤ k := by
      rw [List.length_append, List.length_singleton]
      omega
    rw [List.getElem?_eq_none hend] at hc
    cases hc

/-! ### Triggers -/

theorem trigger_of_unsignalled (hsw : s.switch? id = some sw)
    (h : (sw.trigger s.deliver).signalled = none) :
    s.trigger id = ((sw.trigger s.deliver).answer,
      s.updateSwitch id fun _ => (sw.trigger s.deliver).switch) := by
  rw [System.trigger, hsw]
  simp only [h]

theorem trigger_of_signalled {pid : Nat} (hsw : s.switch? id = some sw)
    (h : (sw.trigger s.deliver).signalled = some pid) :
    s.trigger id = ((sw.trigger s.deliver).answer,
      ((s.updateSwitch id fun _ => (sw.trigger s.deliver).switch).updateChild pid
        (Child.ask s.now)).releaseWatchers) := by
  rw [System.trigger, hsw]
  simp only [h]
  rfl

/-- A switch that was used has no watcher that waits for its message. -/
theorem Lives.not_waiting (h : Lives asked gone s) (hc : s.children[k]? = some c)
    (hsw : s.switch? k = some sw) (hspent : sw.spent = true) : sw.mailbox ≠ .waiting := by
  cases hrun : c.isRunning with
  | false =>
    rw [h.reaped hc hsw hrun]
    nofun
  | true =>
    obtain ⟨log, l, hl, -, hshows⟩ := h.lived hc hsw
    rw [ne_eq, ← hshows.waiting hrun]
    exact hl.inv.used ((hshows.spent hrun).trans hspent)

/-- One switch changes, and its child shows that only as its life allows. -/
theorem Lives.updateSwitch (h : Lives asked gone s) (hc : s.children[id]? = some c)
    (hlived : Life.Lived (asked' id) s.now (gone id) c sw)
    (hreaped : c.isRunning = false → sw.mailbox = .gone)
    (hothers : ∀ k, k ≠ id → asked' k = asked k) :
    Lives asked' gone (s.updateSwitch id fun _ => sw) := by
  refine ⟨fun {k d sw'} hd hsw' => ?_, fun {k d sw'} hd hsw' hended => ?_⟩
  all_goals
    have hd : s.children[k]? = some d := hd
    rw [switch?_updateSwitch] at hsw'
    by_cases hk : id = k
  · rw [if_pos hk] at hsw'
    obtain ⟨before, -, rfl⟩ := Option.map_eq_some_iff.1 hsw'
    subst hk
    obtain rfl : c = d := Option.some.inj (hc.symm.trans hd)
    exact hlived
  · rw [if_neg hk] at hsw'
    rw [hothers k (Ne.symm hk)]
    exact h.lived hd hsw'
  · rw [if_pos hk] at hsw'
    obtain ⟨before, -, rfl⟩ := Option.map_eq_some_iff.1 hsw'
    subst hk
    obtain rfl : c = d := Option.some.inj (hc.symm.trans hd)
    exact hreaped hended
  · rw [if_neg hk] at hsw'
    exact h.reaped hd hsw' hended

/-- The switch of a child that runs is triggered, and the child is asked to stop. -/
theorem Lives.ask (h : Lives asked gone s) (ht : Tended gone s) (hc : s.children[id]? = some c)
    (hsw : s.switch? id = some sw)
    (hlived : Life.Lived (asked' id) s.now (gone id) (c.ask s.now) sw.tell)
    (hothers : ∀ k, k ≠ id → asked' k = asked k) :
    Lives asked' gone (((s.updateSwitch id fun _ => sw.tell).updateChild c.pid
      (Child.ask s.now)).releaseWatchers) := by
  refine Lives.of_lived (fun {k d} hd => ?_) fun {k d sw'} hd hsw' => ?_
  all_goals
    rw [updateChild, List.getElem?_map] at hd
    obtain ⟨d, hbefore, rfl⟩ := Option.map_eq_some_iff.1 hd
    have hbefore : s.children[k]? = some d := hbefore
  · split
    · have hask : (d.ask s.now).switch = d.switch := (Child.later_elapse _ _).switch
      exact hask.trans (ht.switch_eq hbefore)
    · exact ht.switch_eq hbefore
  · have hsw' : (s.updateSwitch id fun _ => sw.tell).switch? k = some sw' := hsw'
    rw [switch?_updateSwitch] at hsw'
    by_cases hk : id = k
    · subst hk
      rw [if_pos rfl, hsw] at hsw'
      obtain rfl := Option.some.inj hsw'
      obtain rfl : c = d := Option.some.inj (hc.symm.trans hbefore)
      rw [if_pos rfl]
      exact hlived
    · rw [if_neg hk] at hsw'
      rw [hothers k (Ne.symm hk), if_neg fun hpid => hk (ht.eq_of_pid hc hbefore hpid).symm]
      exact h.lived hbefore hsw'

/-- Only a child that runs has a watcher that waits. -/
theorem Lives.isRunning_of_armed (h : Lives asked gone s) (hc : s.children[k]? = some c)
    (hsw : s.switch? k = some sw) (harmed : sw.IsArmed) : c.isRunning = true := by
  cases hrun : c.isRunning with
  | true => rfl
  | false =>
    have hwaiting := harmed.2
    rw [h.reaped hc hsw hrun] at hwaiting
    cases hwaiting

/-- A switch is triggered, and what it answers is what becomes of its child. -/
theorem Lives.trigger (h : Lives asked gone s) (ht : Tended gone s) (hgone : ¬ gone id) :
    Lives (fun k => asked k ++ if (Deed.trigger id (s.trigger id).1).asks k then [s.now] else [])
      gone (s.trigger id).2 := by
  have hothers (answer : Except SignalFault Bool) (k : Nat) (hk : k ≠ id) :
      (asked k ++ if (Deed.trigger id answer).asks k then [s.now] else []) = asked k := by
    rw [Deed.asks_trigger_of_ne hk, if_neg Bool.false_ne_true, List.append_nil]
  cases hsw : s.switch? id with
  | none =>
    have hsame : s.trigger id = (.ok false, s) := by rw [System.trigger, hsw]
    rw [hsame]
    simpa [Deed.asks] using h
  | some sw =>
    obtain ⟨c, hc⟩ := ht.exists_child hsw
    have hpair := ht.pair hc hsw
    have hlived := h.lived hc hsw
    by_cases harmed : sw.IsArmed
    · have hrun := h.isRunning_of_armed hc hsw harmed
      have hended {sw' : KillSwitch} : c.isRunning = false → sw'.mailbox = .gone := by
        rw [hrun]
        nofun
      by_cases hpid : KillSwitch.IsValid c.pid
      · have hdeliver : s.deliver c.pid = .delivered := by
          have hchild := hasRunningChild_iff.2 ⟨c, List.mem_of_getElem? hc, rfl, hrun⟩
          rw [deliver, if_pos hchild]
        have htrigger : sw.trigger s.deliver = ⟨sw.tell, .ok true, some c.pid⟩ := by
          rw [KillSwitch.trigger_of_valid harmed hpair.process hpid, hdeliver]
          rfl
        have hsignalled : (sw.trigger s.deliver).signalled = some c.pid := by rw [htrigger]
        have hunasked := (hpair.unused harmed.1).1
        have hasked := hlived.ask hrun hpair.watched hpair.settled hunasked harmed hgone hpid
        rw [trigger_of_signalled hsw hsignalled, htrigger]
        refine h.ask ht hc hsw ?_ (hothers _)
        simpa [Deed.asks] using hasked
      · have htrigger : sw.trigger s.deliver = ⟨sw.spend, .error .invalid, none⟩ :=
          KillSwitch.trigger_of_not_valid harmed hpair.process hpid
        rw [trigger_of_unsignalled hsw (by rw [htrigger]), htrigger]
        refine h.updateSwitch hc ?_ hended (hothers _)
        simpa [Deed.asks] using hlived.spend hrun harmed hgone hpid
    · have hused := h.not_waiting hc hsw
      have htrigger : sw.trigger s.deliver = ⟨{ sw with spent := true }, .ok false, none⟩ :=
        KillSwitch.trigger_of_not_armed harmed hused
      rw [trigger_of_unsignalled hsw (by rw [htrigger]), htrigger]
      have hanswer : (asked id ++ if (Deed.trigger id (.ok false)).asks id then [s.now] else [])
          = asked id := List.append_nil _
      cases hrun : c.isRunning with
      | false =>
        have hreaped := h.reaped hc hsw hrun
        refine h.updateSwitch hc ?_ (fun _ => hreaped) (hothers _)
        rw [hanswer]
        exact hlived.ended hrun fun hg => hg
      | true =>
        -- It was used before, since its watcher would wait otherwise.
        have hspent : sw.spent = true := by
          cases hs : sw.spent with
          | true => rfl
          | false => exact absurd ⟨hs, (hpair.unused hs).2 hrun hgone⟩ harmed
        refine h.updateSwitch hc ?_ (by simp [hrun]) (hothers _)
        rw [hanswer, ← hspent]
        exact hlived

/-! ### Histories -/

/-- The moments at which a trigger of a switch has answered yes. -/
def asksOf (k : Nat) (history : List (Nat × Deed)) : List Nat :=
  (history.filter (·.2.asks k)).map (·.1)

/-- The last clone of a switch has gone. -/
def IsReleased (history : List (Nat × Deed)) (k : Nat) : Prop :=
  ∃ t, (t, .release k) ∈ history

/-- A system has come of one without children. -/
inductive History : List (Nat × Deed) → System → Prop
  | init {s : System} (hswitches : s.switches = []) (hchildren : s.children = []) : History [] s
  | snoc {history : List (Nat × Deed)} {s s' : System} {e : Deed} (h : History history s)
      (hd : Does (IsReleased history) s e s') : History (history ++ [(s.now, e)]) s'

variable {history : List (Nat × Deed)} {e : Deed} {t : Nat}

theorem asksOf_snoc (k : Nat) (history : List (Nat × Deed)) (t : Nat) (e : Deed) :
    asksOf k (history ++ [(t, e)]) = asksOf k history ++ if e.asks k then [t] else [] := by
  rw [asksOf, List.filter_append, List.map_append]
  cases h : e.asks k <;> simp [asksOf, h]

theorem isReleased_snoc :
    IsReleased (history ++ [(t, e)]) k ↔ IsReleased history k ∨ e = .release k := by
  simp [IsReleased, exists_or, eq_comm]

theorem History.tended (h : History history s) : Tended (IsReleased history) s := by
  induction h with
  | init hswitches hchildren => exact .init hswitches hchildren
  | snoc _ hd ih => exact (ih.does hd).mono fun k hk => isReleased_snoc.2 hk

theorem Does.length_children (hd : Does gone s e s') (ht : Tended gone s) :
    s.children.length ≤ s'.children.length := by
  have ht' := ht.does hd
  rw [← ht.count, ← ht'.count]
  cases hd with
  | start behaviour =>
    rw [(releaseWatchers_quiet _).switches, System.withProgram, List.length_append]
    exact Nat.le_add_right _ _
  | pass moment => exact Nat.le_of_eq (advanceTo_quiet s moment).switches.symm
  | crash pid => exact Nat.le_of_eq (crash_quiet s pid).switches.symm
  | @trigger id hgone => exact Nat.le_of_eq (trigger_spends s id).switches.symm
  | release hgone => exact Nat.le_of_eq (List.length_modify _ _ _).symm
  | aside hnow hswitches hchildren => exact Nat.le_of_eq (by rw [hswitches])

theorem Does.lt_of_asks (hd : Does gone s e s') (ht : Tended gone s) (he : e.asks k = true) :
    k < s.children.length := by
  cases hd with
  | @trigger id hgone =>
    rw [← ht.count]
    cases hsw : s.switch? id with
    | none =>
      have hsame : (s.trigger id).1 = .ok false := by rw [System.trigger, hsw]
      rw [hsame] at he
      cases he
    | some sw =>
      obtain ⟨hk, -⟩ := Deed.trigger.inj (Deed.asks_eq_true_iff.1 he)
      exact hk ▸ lt_of_switch? hsw
  | _ => cases he

/-- Nobody asks a child that is not there yet. -/
theorem History.asksOf_eq_nil (h : History history s) (hk : s.children.length ≤ k) :
    asksOf k history = [] := by
  induction h with
  | init => rfl
  | @snoc history s s' e h hd ih =>
    have hle := hd.length_children h.tended
    have hno : e.asks k = false := by
      rw [Bool.eq_false_iff]
      intro he
      have hlt := hd.lt_of_asks h.tended he
      omega
    rw [asksOf_snoc, ih (Nat.le_trans hle hk), hno]
    rfl

/-- What a deed makes of the children, some acts make of their lives. -/
theorem Lives.does (h : Lives asked gone s) (ht : Tended gone s) (hd : Does gone s e s')
    (hnew : asked s.children.length = []) :
    Lives (fun k => asked k ++ if e.asks k then [s.now] else [])
      (fun k => gone k ∨ e = .release k) s' := by
  have hsame {s' : System} {e : Deed} (h : Lives asked gone s') (he : ∀ k, e.asks k = false) :
      Lives (fun k => asked k ++ if e.asks k then [s.now] else [])
        (fun k => gone k ∨ e = .release k) s' := by
    simp only [he, Bool.false_eq_true, if_false, List.append_nil]
    exact h.mono fun k => .inl
  cases hd with
  | start behaviour => exact hsame (h.start ht hnew behaviour) fun _ => rfl
  | pass moment => exact hsame (h.advanceTo ht moment) fun _ => rfl
  | crash pid => exact hsame (h.crash ht pid) fun _ => rfl
  | trigger hgone => exact (h.trigger ht hgone).mono fun _ => .inl
  | @release id hgone =>
    simp only [Deed.asks, Bool.false_eq_true, if_false, List.append_nil, Deed.release.injEq,
      eq_comm (a := id)]
    exact h.dropSender hgone
  | aside hnow hswitches hchildren => exact hsame (h.congr hnow hswitches hchildren) fun _ => rfl

theorem History.lives (h : History history s) :
    Lives (fun k => asksOf k history) (IsReleased history) s := by
  induction h with
  | init hswitches hchildren => exact .init hchildren
  | snoc h hd ih =>
    have hnext := ih.does h.tended hd (h.asksOf_eq_nil (Nat.le_refl _))
    simp only [asksOf_snoc]
    exact hnext.mono fun k hk => isReleased_snoc.2 hk

/-! ### Operations -/

/-- A system comes of another by deeds, and no switch loses its last clone. -/
structure Leads (gone : Nat → Prop) (s s' : System) : Prop where
  extend : ∀ {history}, History history s → (∀ k, IsReleased history k → gone k) →
    ∃ history', History history' s' ∧ ∀ k, IsReleased history' k → gone k

theorem Leads.refl (s : System) : Leads gone s s :=
  ⟨fun h hgone => ⟨_, h, hgone⟩⟩

theorem Leads.trans {s'' : System} (h : Leads gone s s') (h' : Leads gone s' s'') :
    Leads gone s s'' where
  extend hs hgone := by
    obtain ⟨history', hs', hgone'⟩ := h.extend hs hgone
    exact h'.extend hs' hgone'

theorem leads_of_does (hd : ∀ before : Nat → Prop, (∀ k, before k → gone k) → Does before s e s')
    (he : ∀ k, e ≠ .release k) : Leads gone s s' where
  extend hs hgone := by
    refine ⟨_, hs.snoc (hd _ hgone), fun k hk => ?_⟩
    obtain hold | hnew := isReleased_snoc.1 hk
    · exact hgone k hold
    · exact absurd hnew (he k)

theorem leads_aside (hnow : s'.now = s.now) (hswitches : s'.switches = s.switches)
    (hchildren : s'.children = s.children) : Leads gone s s' :=
  leads_of_does (fun _ _ => .aside hnow hswitches hchildren) fun _ => by simp

theorem leads_trigger (hgone : ¬ gone id) : Leads gone s (s.trigger id).2 :=
  leads_of_does (fun _ hsub => .trigger fun h => hgone (hsub id h)) fun _ => by simp

theorem leads_triggerProcess {p : PluginProcess} (hgone : ∀ id, p.switch = some id → ¬ gone id) :
    Leads gone s (s.triggerProcess p).2 := by
  unfold triggerProcess
  split
  · rename_i id hid
    exact leads_trigger (hgone id hid)
  · exact .refl s

theorem leads_kill {i : Nat} {name : String}
    (hgone : ∀ p id, (s.table i).get? name = some p → p.switch = some id → ¬ gone id) :
    Leads gone s (s.kill i name).2 := by
  cases hp : (s.table i).get? name with
  | none =>
    rw [kill_of_get?_eq_none hp]
    exact .refl s
  | some p =>
    rw [kill_of_get?_eq_some hp]
    exact (leads_triggerProcess fun id => hgone p id hp).trans (leads_aside rfl rfl rfl)

theorem leads_killEach {i : Nat} {names : List String}
    (hgone : ∀ n p id, (s.table i).get? n = some p → p.switch = some id → ¬ gone id) :
    Leads gone s (s.killEach i names).2 := by
  induction names generalizing s with
  | nil => exact .refl s
  | cons name names ih =>
    rw [killEach_cons]
    exact (leads_kill (hgone name)).trans (ih fun n p id hp => hgone n p id (entry_of_kill hp))

theorem leads_killAll {i : Nat}
    (hgone : ∀ n p id, (s.table i).get? n = some p → p.switch = some id → ¬ gone id) :
    Leads gone s (s.killAll i).2 :=
  (leads_killEach hgone).trans (leads_aside rfl rfl rfl)

theorem leads_enter {i : Nat} {p : PluginProcess} (hgone : ∀ id, p.switch = some id → ¬ gone id) :
    Leads gone s (s.enter i p).2 := by
  cases hr : s.isReady i p.name with
  | true =>
    rw [enter_of_ready hr]
    exact leads_triggerProcess hgone
  | false =>
    rw [enter_of_not_ready hr]
    exact leads_aside rfl rfl rfl

theorem leads_askRunner {i : Nat} {r : SpawnRequest} (hmachine : s.IsMachine)
    (hi : i < s.pools.length) : Leads gone s (s.askRunner i r).2 := by
  have hasked : Leads gone s (s.asked i r) := leads_aside rfl rfl rfl
  obtain ⟨e, -, hsystem⟩ | ⟨behaviour, -, hsystem⟩ := askRunner_cases hmachine hi r
  · rw [hsystem]
    exact hasked
  · rw [hsystem]
    exact hasked.trans (leads_of_does (fun _ _ => .start behaviour) fun _ => by simp)

end System

/-! ## Hosts at work -/

namespace Household

open PluginHost.System

variable {x y : Household} {s' : System}

theorem Inv.leads_beginRun (inv : Inv x) {c : Container} {plugin : String} {port : UInt16}
    {l : Launch} (hc : c.pool < x.system.pools.length)
    (h : c.beginRun x.system plugin port = (.ok l, s')) : Leads x.IsForsaken x.system s' := by
  obtain ⟨p, -, -, hask⟩ := Container.beginRun_eq_ok_iff.1 h
  have hleads : Leads x.IsForsaken x.system
      (x.system.askRunner c.pool (Container.request plugin p port)).2 :=
    leads_askRunner inv.machine hc
  rw [hask] at hleads
  exact hleads

theorem Inv.leads_kill (inv : Inv x) (i : Nat) (name : String) :
    Leads x.IsForsaken x.system (x.system.kill i name).2 :=
  System.leads_kill fun _ _ hp hid => inv.not_forsaken_of_entry hp hid

theorem Inv.leads_finish (inv : Inv x) {l : Launch} {rest : List Launch}
    (h : x.launches.Perm (l :: rest)) :
    Leads x.IsForsaken x.system (Container.finishRun x.system l).2 := by
  have hmem : l ∈ x.launches := h.mem_iff.2 List.mem_cons_self
  obtain ⟨hpool, hdue⟩ := inv.launched l hmem
  cases hp : l.process? with
  | none =>
    obtain ⟨e, hfin⟩ := System.finishRun_of_process?_eq_none (s := x.system) hp hdue
    rw [hfin]
    exact .refl x.system
  | some p =>
    have hfin := System.finishStart_of_process? (s := x.system) hp
    have hsystem : (Container.finishRun x.system l).2 = (x.system.enter l.pool p).2 := by
      rw [Container.finishRun_of_ok (by rw [hfin]), hfin]
    rw [hsystem]
    exact leads_enter fun id hid => inv.not_forsaken_of_carried hmem hp hid

/-- Whatever is done at a step is done by deeds, and only who gives up a start lets go the
    last clone of a switch. -/
theorem Step.history {before : List (Nat × Deed)} (hs : Step x y) (inv : Inv x)
    (h : History before x.system)
    (hgone : ∀ k, IsReleased before k → x.IsForsaken k) :
    ∃ history, History history y.system ∧ ∀ k, IsReleased history k → y.IsForsaken k := by
  cases hs with
  | begin hc hrun => exact (inv.leads_beginRun hc hrun).extend h hgone
  | beginHandle hc hrun =>
    exact (inv.leads_beginRun hc (Registry.beginRun_of_beginHandle hrun).2).extend h hgone
  | @beginRestart r signal o s' hc hrun =>
    rcases r.beginRestart_cases x.system signal with hnone | ⟨c, port, -, hcont, -, hrest⟩
    · rw [hnone] at hrun
      obtain ⟨rfl, rfl⟩ := Prod.mk.inj hrun
      exact ⟨_, h, hgone⟩
    · have hkill := inv.leads_kill c.pool signal.plugin
      rcases hrest with ⟨e, -, hnone⟩ | ⟨l, t, -, hbegin, hsome⟩
      · rw [hnone] at hrun
        obtain ⟨rfl, rfl⟩ := Prod.mk.inj hrun
        exact hkill.extend h hgone
      · rw [hsome] at hrun
        obtain ⟨rfl, rfl⟩ := Prod.mk.inj hrun
        have hpool : c.pool < (x.system.kill c.pool signal.plugin).2.pools.length := by
          rw [(System.kill_kills x.system c.pool signal.plugin).pools]
          exact hc c hcont
        have hstart := (inv.kill c.pool signal.plugin).leads_beginRun hpool hbegin
        exact (hkill.trans hstart).extend h hgone
  | finish hperm => exact (inv.leads_finish hperm).extend h hgone
  | @abandon l rest p hperm hwait =>
    have hmem : l ∈ x.launches := hperm.mem_iff.2 List.mem_cons_self
    have hhand : p ∈ x.hands :=
      List.mem_append_left _ (List.mem_filterMap.2 ⟨l, hmem, hwait.1⟩)
    obtain ⟨id, hid, -⟩ := inv.held.fresh p hhand
    have hkept : ¬ IsReleased before id :=
      fun hrel => inv.not_forsaken_of_carried hmem hwait.1 hid (hgone id hrel)
    rw [Household.abandon, giveUp_of_process? hwait.1 hid]
    refine ⟨_, h.snoc (.release hkept), fun k hk => ?_⟩
    obtain hold | hnew := isReleased_snoc.1 hk
    · obtain ⟨q, hq, hqid⟩ := hgone k hold
      exact ⟨q, List.mem_cons_of_mem _ hq, hqid⟩
    · obtain rfl := Deed.release.inj hnew
      exact ⟨p, List.mem_cons_self, hid⟩
  | kill i name => exact (inv.leads_kill i name).extend h hgone
  | killAll i =>
    have hkill : Leads x.IsForsaken x.system (x.system.killAll i).2 :=
      leads_killAll fun _ _ _ hp hid => inv.not_forsaken_of_entry hp hid
    exact hkill.extend h hgone
  | pass moment =>
    have hpass : Leads x.IsForsaken x.system (x.system.advanceTo moment) :=
      leads_of_does (fun _ _ => .pass moment) fun _ => by simp
    exact hpass.extend h hgone
  | crash pid =>
    have hcrash : Leads x.IsForsaken x.system (x.system.crash pid) :=
      leads_of_does (fun _ _ => .crash pid) fun _ => by simp
    exact hcrash.extend h hgone
  | aside hnow hpools hswitches hchildren =>
    exact (leads_aside hnow hswitches hchildren).extend h hgone

/-- Hosts at work have a history. -/
theorem Reachable.history (h : Reachable x) :
    ∃ history, History history x.system ∧ ∀ k, IsReleased history k → x.IsForsaken k := by
  induction h with
  | init hmachine hswitches hchildren hempty =>
    exact ⟨[], .init hswitches hchildren, fun k ⟨t, ht⟩ => by cases ht⟩
  | step h hs ih =>
    obtain ⟨history, hhistory, hgone⟩ := ih
    exact hs.history h.inv hhistory hgone

end Household

namespace System

/-- The life of every program goes by `Lifecycle`, whenever it ends, whatever is done with
    its switch, and in whatever order its watcher sees that.  And every child of hosts at
    work leads such a life, in which triggers have answered yes exactly when the history
    says so. -/
theorem child_lifecycle :
    (∀ c log l, Life.Run (Life.begin c) log l → Life.Lifecycle log l) ∧
      (∀ history s, History history s → ∀ k c, s.children[k]? = some c →
        ∃ log l, Life.Run (Life.begin c) log l ∧ l.child = c ∧ l.now = s.now ∧ l.AtRest ∧
          Life.asks log = asksOf k history) ∧
      ∀ x, Household.Reachable x → ∃ history, History history x.system := by
  refine ⟨fun c log l h => h.lifecycle, fun history s h k c hc => ?_, fun x h => ?_⟩
  · obtain ⟨sw, hsw⟩ := h.tended.exists_switch hc
    obtain ⟨log, l, hl, hasks, hshows⟩ := h.lives.lived hc hsw
    exact ⟨log, l, hl, hshows.child, hshows.now, hshows.rest, hasks⟩
  · obtain ⟨history, hhistory, -⟩ := h.history
    exact ⟨history, hhistory⟩

/-! ### A program that takes no notice -/

/-- It is told to stop at once, and goes on for all of the time that it is given. -/
def stubbornHistory : List (Nat × Deed) :=
  [(0, .start { reaction := none }), (0, .trigger 0 (.ok true)), (0, .pass 6000)]

def stubbornSystem : System :=
  ((withProgram {} { reaction := none }).releaseWatchers.trigger 0).2.advanceTo 6000

def stubbornChild : Child where
  pid := 1000000000
  switch := 0
  started := 0
  behaviour := { reaction := none }
  signals := [(0, .terminate), (5000, .kill)]
  ended := some 5000

theorem history_stubborn : History stubbornHistory stubbornSystem := by
  have hstart : History (stubbornHistory.take 1)
      (withProgram {} { reaction := none }).releaseWatchers :=
    (History.init rfl rfl).snoc (s := {}) (.start { reaction := none })
  have hunreleased : ¬ IsReleased (stubbornHistory.take 1) 0 := by
    simp [IsReleased, stubbornHistory]
  have htrigger := hstart.snoc (.trigger hunreleased)
  exact htrigger.snoc (.pass 6000)

/-- Its life goes by the rules: it was asked once, and killed after the patience. -/
theorem stubborn_child_killed :
    History stubbornHistory stubbornSystem ∧ stubbornSystem.children[0]? = some stubbornChild ∧
      ∃ log l, Life.Run (Life.begin stubbornChild) log l ∧ l.child = stubbornChild ∧
        Life.asks log = [0] ∧ Life.Lifecycle log l := by
  have hchild : stubbornSystem.children[0]? = some stubbornChild := by decide
  obtain ⟨log, l, hl, hc, -, -, hasks⟩ :=
    child_lifecycle.2.1 stubbornHistory stubbornSystem history_stubborn 0 stubbornChild hchild
  exact ⟨history_stubborn, hchild, log, l, hl, hc, hasks, child_lifecycle.1 _ _ _ hl⟩

end System
end PluginHost
