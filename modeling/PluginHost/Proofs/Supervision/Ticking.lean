/-
  PluginHost.Proofs.Supervision.Ticking

  When a session ticks.  A ticker is begun for one interval after its start, and whenever
  a tick is taken the next one is due an interval after that one was; a tick that was
  missed passes those by that were missed with it.  So each tick is due a whole number of
  intervals after the start, and the number is that of the tick as long as none was
  missed.  All this holds if the clock can show when the first tick is due; if it cannot,
  the ticker breaks down as it is begun, and nothing ever ticks.

    * `Ticked perSecond interval start ticks t` — a ticker has given these ticks, each with
      the moment at which it was due and the one at which it was taken, and is `t` then.
    * `OnSchedule perSecond interval start ticks t` — when they were due, and when the next
      one is.
    * `TimedRun n₀ ticks n` — a session has gone on and given these ticks, whatever else it
      did between them.
-/
import PluginHost.CommandLine.Serve
import PluginHost.Proofs.Supervision.Sessions

namespace PluginHost

/-! ## Tickers -/

namespace Ticker

variable {perSecond interval start moment now : Nat} {ticks : List (Nat × Nat)} {t : Ticker}

/-- Ticks of a ticker, each when it was due and when it was taken. -/
inductive Ticked (perSecond interval start : Nat) : List (Nat × Nat) → Ticker → Prop where
  | nil : Ticked perSecond interval start [] (.startIn perSecond interval start)
  | snoc {ticks : List (Nat × Nat)} {t : Ticker} {moment now : Nat}
      (h : Ticked perSecond interval start ticks t) (hdue : t.next? = some moment)
      (hnow : moment ≤ now) :
      Ticked perSecond interval start (ticks ++ [(moment, now)]) (t.tickIn perSecond interval now)

/-- No tick was missed. -/
def Punctual (perSecond : Nat) (ticks : List (Nat × Nat)) : Prop :=
  ∀ x ∈ ticks, x.2 ≤ x.1 + Clock.graceIn perSecond

/-- The ticker whose next tick is due at a moment, or beyond what the clock can show. -/
def dueAt (perSecond moment : Nat) : Ticker :=
  if moment < Clock.rangeIn perSecond then .due moment else .exhausted

/-- Each tick was due a whole number of intervals after the start, a later tick a greater
    number, and so is the next one.  If none was missed, the number of intervals is that
    of the tick. -/
structure OnSchedule (perSecond interval start : Nat) (ticks : List (Nat × Nat)) (t : Ticker) :
    Prop where
  whole : ∃ numbers : List Nat, ∃ next, (0 :: numbers ++ [next]).Pairwise (· < ·) ∧
    ticks.map (·.1) = numbers.map (start + · * interval) ∧
    t = dueAt perSecond (start + next * interval)
  each : Punctual perSecond ticks →
    ticks.map (·.1) = (List.range ticks.length).map (fun k => start + (k + 1) * interval) ∧
    t = dueAt perSecond (start + (ticks.length + 1) * interval)

theorem startIn_ne_broken_iff :
    startIn perSecond interval start ≠ .broken ↔ start + interval < Clock.rangeIn perSecond := by
  rw [startIn]
  split
  · rename_i h
    exact iff_of_true (by simp) h
  · rename_i h
    exact iff_of_false (fun hne => hne rfl) h

theorem next?_dueAt (h : (dueAt perSecond moment).next? = some now) : now = moment := by
  rw [dueAt] at h
  split at h
  · exact (Option.some.inj h).symm
  · cases h

theorem dueAt_ne_broken : dueAt perSecond moment ≠ .broken := by
  rw [dueAt]
  split <;> simp

/-- After a tick the next one is due some whole intervals later: one, if the tick was not
    missed. -/
theorem exists_dueAfter_eq (perSecond : Nat) (h : 0 < interval) (hnow : moment ≤ now) :
    ∃ k, 0 < k ∧ dueAfter perSecond interval now moment = moment + k * interval ∧
      (now ≤ moment + Clock.graceIn perSecond → k = 1) := by
  rw [dueAfter]
  split
  · -- As many intervals are passed over as have gone by whole since the tick was due.
    rename_i hmissed
    refine ⟨(now - moment) / interval + 1, Nat.succ_pos _, ?_, fun hle => by omega⟩
    have hrest := Nat.div_add_mod (now - moment) interval
    have hlt := Nat.mod_lt (now - moment) h
    rw [Nat.add_mul, Nat.one_mul, Nat.mul_comm]
    omega
  · exact ⟨1, Nat.one_pos, by rw [Nat.one_mul], fun _ => rfl⟩

theorem tickIn_of_next? (h : t.next? = some moment) :
    t.tickIn perSecond interval now = dueAt perSecond (dueAfter perSecond interval now moment) := by
  cases t with
  | due m =>
    obtain rfl := Option.some.inj h
    rfl
  | _ => cases h

/-! ### The schedule -/

theorem OnSchedule.nil (h : start + interval < Clock.rangeIn perSecond) :
    OnSchedule perSecond interval start [] (startIn perSecond interval start) := by
  have hfirst : startIn perSecond interval start = dueAt perSecond (start + 1 * interval) := by
    rw [startIn, dueAt, Nat.one_mul, if_pos h, if_pos h]
  exact ⟨⟨[], 1, by simp, rfl, hfirst⟩, fun _ => ⟨rfl, hfirst⟩⟩

theorem ascending_snoc {numbers : List Nat} {a b : Nat}
    (h : (numbers ++ [a]).Pairwise (· < ·)) (hab : a < b) :
    (numbers ++ [a] ++ [b]).Pairwise (· < ·) := by
  refine List.pairwise_append.2 ⟨h, List.pairwise_singleton _ _, fun x hx y hy => ?_⟩
  obtain rfl := List.mem_singleton.1 hy
  cases List.mem_append.1 hx with
  | inl hbefore =>
    have hxa := (List.pairwise_append.1 h).2.2 x hbefore a List.mem_cons_self
    exact Nat.lt_trans hxa hab
  | inr hlast =>
    obtain rfl := List.mem_singleton.1 hlast
    exact hab

/-- The tick that is taken is the one that was due, and the next one is due later. -/
theorem OnSchedule.snoc (h : OnSchedule perSecond interval start ticks t) (hpos : 0 < interval)
    (hdue : t.next? = some moment) (hnow : moment ≤ now) :
    OnSchedule perSecond interval start (ticks ++ [(moment, now)])
      (t.tickIn perSecond interval now) := by
  obtain ⟨k, hk, hafter, hone⟩ := exists_dueAfter_eq perSecond hpos hnow
  rw [tickIn_of_next? hdue, hafter]
  constructor
  · -- The number of the tick that was due is behind the others, and the next one behind it.
    obtain ⟨numbers, next, hascending, hticks, ht⟩ := h.whole
    have hmoment : moment = start + next * interval := next?_dueAt (ht ▸ hdue)
    refine ⟨numbers ++ [next], next + k, ?_, ?_, ?_⟩
    · exact ascending_snoc hascending (Nat.lt_add_of_pos_right hk)
    · rw [List.map_append, List.map_append, hticks, hmoment]
      rfl
    · rw [hmoment, Nat.add_mul, Nat.add_assoc]
  · -- Without a missed tick the next one is always one interval later.
    intro hpunctual
    obtain ⟨hticks, ht⟩ := h.each fun x hx => hpunctual x (List.mem_append_left _ hx)
    have hmoment : moment = start + (ticks.length + 1) * interval := next?_dueAt (ht ▸ hdue)
    have hk1 : k = 1 := hone (hpunctual (moment, now) (by simp))
    rw [List.length_append, List.length_singleton, List.range_succ]
    constructor
    · rw [List.map_append, List.map_append, hticks, hmoment]
      rfl
    · rw [hmoment, hk1, Nat.add_mul (ticks.length + 1), Nat.add_assoc]

theorem Ticked.onSchedule (h : Ticked perSecond interval start ticks t) (hpos : 0 < interval)
    (hclock : start + interval < Clock.rangeIn perSecond) :
    OnSchedule perSecond interval start ticks t := by
  induction h with
  | nil => exact OnSchedule.nil hclock
  | snoc _ hdue hnow ih => exact ih.snoc hpos hdue hnow

/-- A ticker that is on schedule goes on. -/
theorem OnSchedule.ne_broken (h : OnSchedule perSecond interval start ticks t) : t ≠ .broken := by
  obtain ⟨_, _, _, _, rfl⟩ := h.whole
  exact dueAt_ne_broken

/-- A ticker that broke down gives no tick. -/
theorem Ticked.eq_nil (h : Ticked perSecond interval start ticks t)
    (hclock : ¬ start + interval < Clock.rangeIn perSecond) : ticks = [] := by
  -- It is broken from the start, and what is broken has no next tick.
  have hnone : ticks = [] ∧ t = .broken := by
    induction h with
    | nil => exact ⟨rfl, Classical.not_not.1 (mt startIn_ne_broken_iff.1 hclock)⟩
    | snoc _ hdue _ ih =>
      rw [ih.2] at hdue
      cases hdue
  exact hnone.1

/-- So many ticks, each taken when it is due. -/
def exactTicks (interval start count : Nat) : List (Nat × Nat) :=
  (List.range count).map fun k => (start + (k + 1) * interval, start + (k + 1) * interval)

theorem punctual_exactTicks (perSecond interval start count : Nat) :
    Punctual perSecond (exactTicks interval start count) := by
  intro x hx
  obtain ⟨k, -, rfl⟩ := List.mem_map.1 hx
  exact Nat.le_add_right _ _

/-- A ticker gives as many ticks as the clock can show. -/
theorem exists_ticked (hpos : 0 < interval) {count : Nat}
    (hclock : start + count * interval < Clock.rangeIn perSecond) :
    ∃ t, Ticked perSecond interval start (exactTicks interval start count) t := by
  induction count with
  | zero => exact ⟨_, .nil⟩
  | succ count ih =>
    rw [Nat.add_mul, Nat.one_mul] at hclock
    obtain ⟨t, ht⟩ := ih (by omega)
    -- None of these ticks was missed, so that the schedule tells the next one.
    have hon := (ht.onSchedule hpos (by omega)).each (punctual_exactTicks _ _ _ _)
    rw [exactTicks, List.length_map, List.length_range] at hon
    have hdue : t.next? = some (start + (count + 1) * interval) := by
      rw [hon.2, dueAt, if_pos (by rw [Nat.add_mul, Nat.one_mul]; omega)]
      rfl
    refine ⟨t.tickIn perSecond interval (start + (count + 1) * interval), ?_⟩
    rw [exactTicks, List.range_succ, List.map_append]
    exact ht.snoc hdue (Nat.le_refl _)

/-- A ticker does not break down, and ticks on schedule, exactly if the clock can show when its
    first tick is due. -/
structure KeepsTime (perSecond interval start : Nat) : Prop where
  unbroken_iff : (∀ ticks t, Ticked perSecond interval start ticks t → t ≠ .broken) ↔
    start + interval < Clock.rangeIn perSecond
  onSchedule : start + interval < Clock.rangeIn perSecond → ∀ ticks t,
    Ticked perSecond interval start ticks t → OnSchedule perSecond interval start ticks t
  goesOn : ∀ count, start + count * interval < Clock.rangeIn perSecond →
    ∃ t, Ticked perSecond interval start (exactTicks interval start count) t
  silent : ¬ start + interval < Clock.rangeIn perSecond → ∀ ticks t,
    Ticked perSecond interval start ticks t → ticks = []

theorem keepsTime (h : 0 < interval) : KeepsTime perSecond interval start := by
  refine ⟨⟨?_, ?_⟩, ?_, fun count hclock => exists_ticked h hclock, ?_⟩
  · intro hunbroken
    exact startIn_ne_broken_iff.1 (hunbroken [] _ .nil)
  · intro hclock ticks t ht
    exact (ht.onSchedule h hclock).ne_broken
  · intro hclock ticks t ht
    exact ht.onSchedule h hclock
  · intro hclock ticks t ht
    exact ht.eq_nil hclock

end Ticker

/-! ## Sessions -/

namespace Session

variable {n₀ n n' : Session} {r : Registry} {s s' : System} {limit : Option Nat}
  {ticks : List (Nat × Nat)}

/-- A session has gone on and given ticks, each when it was due and when it was taken.  The
    steps between them need no time; everything else may have changed between any two. -/
inductive TimedRun (n₀ : Session) : List (Nat × Nat) → Session → Prop where
  | nil : TimedRun n₀ [] n₀
  | tick {ticks : List (Nat × Nat)} {n : Session} {moment : Nat} (h : TimedRun n₀ ticks n)
      (hdue : n.ticker.next? = some moment) (s : System) (hnow : moment ≤ s.now) :
      TimedRun n₀ (ticks ++ [(moment, s.now)]) (n.tick s).1
  | step {ticks : List (Nat × Nat)} {n n' : Session} {r : Registry} {s s' : System}
      (h : TimedRun n₀ ticks n) (hs : n.stepNow r s = some (n', s')) : TimedRun n₀ ticks n'
  | stop {ticks : List (Nat × Nat)} {n : Session} (h : TimedRun n₀ ticks n) :
      TimedRun n₀ ticks n.stop

theorem interval_stepNow (h : n.stepNow r s = some (n', s')) : n'.interval = n.interval := by
  rcases stepNow_cases h with ⟨before, due, t, after, -, rfl, -⟩ | ⟨d, -, hadvance⟩ |
    ⟨signal, rest, -, -, rfl, -⟩
  · rw [conclude_eq]
    split
    · rw [send]
      split <;> rfl
    · rfl
  · have hsame : (n.advance r s d).1.interval = n.interval := by
      unfold advance
      split
      · rfl
      · rfl
      · split <;> rfl
    rwa [hadvance] at hsame
  · rfl

/-- What ticks in a session is a ticker, until it is stopped. -/
theorem TimedRun.ticked {targets : List Target} {hs : List Handler} {p : Probe}
    {interval now : Nat} (h : TimedRun (start targets hs p interval now) ticks n) :
    n.interval = interval ∧ ∃ t, Ticker.Ticked 1000 interval now ticks t ∧
      (n.ticker = t ∨ n.ticker = .stopped) := by
  induction h with
  | nil => exact ⟨rfl, _, .nil, .inl rfl⟩
  | @tick ticks n moment _ hdue s hnow ih =>
    obtain ⟨hinterval, t, ht, hticker⟩ := ih
    -- A stopped ticker has no tick that could have been due.
    cases hticker with
    | inl heq =>
      have hticked := ht.snoc (heq ▸ hdue) hnow
      refine ⟨hinterval, _, hticked, .inl ?_⟩
      show n.ticker.tickIn 1000 n.interval s.now = t.tickIn 1000 interval s.now
      rw [heq, hinterval]
    | inr hstopped =>
      rw [hstopped] at hdue
      cases hdue
  | step _ hs ih =>
    rw [interval_stepNow hs, ticker_stepNow hs]
    exact ih
  | stop _ ih =>
    obtain ⟨hinterval, t, ht, -⟩ := ih
    exact ⟨hinterval, t, ht, .inr rfl⟩

/-- Whatever ticks a ticker may give, a session may. -/
theorem exists_timedRun (targets : List Target) (hs : List Handler) (p : Probe)
    {interval now : Nat} {t : Ticker} (h : Ticker.Ticked 1000 interval now ticks t) :
    ∃ n, TimedRun (start targets hs p interval now) ticks n ∧ n.interval = interval ∧
      n.ticker = t := by
  induction h with
  | nil => exact ⟨_, .nil, rfl, rfl⟩
  | @snoc ticks t moment taken _ hdue hnow ih =>
    obtain ⟨n, hrun, hinterval, rfl⟩ := ih
    -- Of the machine only its clock matters here.
    refine ⟨_, hrun.tick hdue { now := taken } hnow, hinterval, ?_⟩
    show n.ticker.tickIn 1000 n.interval taken = n.ticker.tickIn 1000 interval taken
    rw [hinterval]

/-- The steps by which a session goes on are among these. -/
theorem TimedRun.of_step (h : TimedRun n₀ ticks n) (hs : n.step r s limit = some (n', s')) :
    ∃ more, TimedRun n₀ (ticks ++ more) n' := by
  rcases step_cases hs with hnow | ⟨-, moment, -, ⟨hdue, htick⟩ | ⟨-, rfl, -⟩⟩
  · refine ⟨[], ?_⟩
    rw [List.append_nil]
    exact h.step hnow
  · have hnow : moment ≤ (s.advanceTo moment).now := by
      rw [System.now_advanceTo]
      exact Nat.le_max_right _ _
    have hticked := h.tick hdue _ hnow
    rw [htick] at hticked
    exact ⟨_, hticked⟩
  · refine ⟨[], ?_⟩
    rwa [List.append_nil]

theorem Goes.timedRun (h : Goes n₀ n) : ∃ ticks, TimedRun n₀ ticks n := by
  induction h with
  | refl => exact ⟨[], .nil⟩
  | step _ hs ih =>
    obtain ⟨ticks, hrun⟩ := ih
    obtain ⟨more, hmore⟩ := hrun.of_step hs
    exact ⟨_, hmore⟩

/-- So it is with a session, until it is stopped; its own steps are among those that are
    considered. -/
structure KeepsTime (n₀ : Session) (now : Nat) : Prop where
  goes : ∀ n, Goes n₀ n → ∃ ticks, TimedRun n₀ ticks n
  unbroken_iff : (∀ ticks n, TimedRun n₀ ticks n → n.ticker ≠ .broken) ↔
    now + n₀.interval < Clock.range
  onSchedule : now + n₀.interval < Clock.range → ∀ ticks n, TimedRun n₀ ticks n →
    ∃ t, (n.ticker = t ∨ n.ticker = .stopped) ∧ Ticker.OnSchedule 1000 n₀.interval now ticks t
  goesOn : ∀ count, now + count * n₀.interval < Clock.range →
    ∃ n, TimedRun n₀ (Ticker.exactTicks n₀.interval now count) n
  silent : ¬ now + n₀.interval < Clock.range → ∀ ticks n, TimedRun n₀ ticks n → ticks = []

theorem keepsTime_start (targets : List Target) (hs : List Handler) (p : Probe)
    {interval : Nat} (h : 0 < interval) (now : Nat) :
    KeepsTime (start targets hs p interval now) now := by
  have hkeeps : Ticker.KeepsTime 1000 interval now := Ticker.keepsTime h
  refine ⟨fun n hgoes => hgoes.timedRun, ⟨?_, ?_⟩, ?_, ?_, ?_⟩
  · intro hunbroken
    exact Ticker.startIn_ne_broken_iff.1 (hunbroken [] _ .nil)
  · intro hclock ticks n hrun hbroken
    obtain ⟨-, t, ht, hticker⟩ := hrun.ticked
    cases hticker with
    | inl heq => exact hkeeps.unbroken_iff.2 hclock _ t ht (heq ▸ hbroken)
    | inr hstopped =>
      rw [hstopped] at hbroken
      cases hbroken
  · intro hclock ticks n hrun
    obtain ⟨-, t, ht, hticker⟩ := hrun.ticked
    exact ⟨t, hticker, hkeeps.onSchedule hclock _ t ht⟩
  · intro count hclock
    obtain ⟨t, ht⟩ := hkeeps.goesOn count hclock
    obtain ⟨n, hrun, -⟩ := exists_timedRun targets hs p ht
    exact ⟨n, hrun⟩
  · intro hclock ticks n hrun
    obtain ⟨-, t, ht, -⟩ := hrun.ticked
    exact hkeeps.silent hclock _ t ht

end Session

/-! ## Supervisors -/

namespace Supervisor

open Session (TimedRun)
open Ticker (Ticked)

theorem interval_withInterval (v : Supervisor) (interval : Nat) :
    (v.withInterval interval).interval = if interval = 0 then v.interval else interval := by
  rw [withInterval]
  split <;> rfl

theorem session_start {v : Supervisor} (h : v.session = none) (now : Nat) :
    (v.start now).session = some (.start v.targets v.handlers v.probe v.interval now) := by
  rw [start, isWatching, h]
  rfl

theorem session_withInterval (v : Supervisor) (interval : Nat) :
    (v.withInterval interval).session = v.session := by
  rw [withInterval]
  split <;> rfl

/-- A session that is started ticks on schedule exactly if the clock can show when its first tick
    is due.  An interval of zero is none, so that no ticker is begun for it.  Numbers that count
    a second in other parts make no difference to the ticker. -/
theorem on_schedule_iff (v : Supervisor) (interval now perSecond : Nat) (hv : 0 < v.interval)
    (hidle : v.session = none) :
    ∃ n₀, ((v.withInterval interval).start now).session = some n₀ ∧
      n₀.interval = (if interval = 0 then v.interval else interval) ∧ 0 < n₀.interval ∧
      n₀.KeepsTime now ∧ Ticker.KeepsTime perSecond n₀.interval now := by
  have hsession := session_start ((session_withInterval v interval).trans hidle) now
  have hinterval := interval_withInterval v interval
  have hpos : 0 < (v.withInterval interval).interval := by
    rw [hinterval]
    split
    · exact hv
    · rename_i hne
      exact Nat.pos_of_ne_zero hne
  refine ⟨_, hsession, hinterval, hpos, ?_, Ticker.keepsTime hpos⟩
  exact Session.keepsTime_start _ _ _ hpos now

/-- A session is begun at 7 with the interval that is there.  Its first tick is taken three
    milliseconds late, which is in time; its second one is taken two intervals late, and the
    third one is the next that is not over.  If these were nanoseconds, both would be in time. -/
theorem late_ticks_on_schedule :
    ∃ n₀, ((withInterval {} 0).start 7).session = some n₀ ∧
      (∃ n, TimedRun n₀ [(5007, 5010)] n ∧ n.ticker = .due 10007) ∧
      (∃ n, TimedRun n₀ [(5007, 5010), (10007, 20008)] n ∧ n.ticker = .due 25007) ∧
      ∃ t, Ticked 1000000000 5000 7 [(5007, 5010), (10007, 20008)] t ∧ t = .due 15007 := by
  obtain ⟨n₀, hsession, -, -, hkeeps, hfine⟩ :=
    on_schedule_iff {} 0 7 1000000000 (by decide) rfl
  obtain rfl := Option.some.inj hsession
  have hnone : TimedRun (.start [] [] {} 5000 7) [] (.start [] [] {} 5000 7) := .nil
  have hfirst := hnone.tick rfl { now := 5010 } (by decide)
  obtain ⟨t, hticker, hon⟩ := hkeeps.onSchedule (by decide) _ _ hfirst
  have hpunctual : Ticker.Punctual 1000 [(5007, 5010)] := by
    intro x hx
    obtain rfl := List.mem_singleton.1 hx
    decide
  obtain ⟨-, rfl⟩ := hon.each hpunctual
  have hdue : (Session.start [] [] {} 5000 7 |>.tick { now := 5010 }).1.ticker = .due 10007 :=
    hticker.resolve_right (by decide)
  have hsecond := hfirst.tick (by rw [hdue]; rfl) { now := 20008 } (by decide)
  have hbegun : Ticked 1000000000 5000 7 [] (.due 5007) := .nil
  have hticked : Ticked 1000000000 5000 7 [(5007, 5010), (10007, 20008)] _ :=
    (hbegun.snoc rfl (by decide)).snoc rfl (by decide)
  refine ⟨_, hsession, ⟨_, hfirst, hdue⟩, ⟨_, hsecond, by rfl⟩, _, hticked, ?_⟩
  refine ((hfine.onSchedule (by decide) _ _ hticked).each ?_).2
  intro x hx
  simp only [List.mem_cons, List.not_mem_nil, or_false] at hx
  obtain rfl | rfl := hx <;> decide

/-- The command line takes every number of seconds of 64 bits.  With the greatest one the session
    is watched, but its ticker broke down as it was begun, and there is no tick. -/
theorem interval_beyond_clock :
    (CommandLine.Request.ofArguments ["run", "--interval", "18446744073709551615"]).toOption
      = some { command := .run { interval := 18446744073709551615 } } ∧
    let v := (withInterval {} ((18446744073709551615 : UInt64).toNat * 1000)).start 0
    v.isWatching = true ∧ ∃ n₀, v.session = some n₀ ∧
      ¬ (∀ ticks n, TimedRun n₀ ticks n → n.ticker ≠ .broken) ∧
      ∀ ticks n, TimedRun n₀ ticks n → ticks = [] := by
  refine ⟨by decide +kernel, rfl, _, rfl, fun h => ?_, fun ticks n h => ?_⟩
  · exact h [] _ .nil (by decide +kernel)
  · obtain ⟨-, t, ht, -⟩ := h.ticked
    exact ht.eq_nil (by decide +kernel)

end Supervisor
end PluginHost
