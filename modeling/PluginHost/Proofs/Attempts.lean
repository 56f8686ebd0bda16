/-
  PluginHost.Proofs.Attempts

  How many attempts a call makes, when they are made, and what the call comes to.
  Whoever is called may answer each attempt as it likes, and may take any time for it.

  A call has three ways to end: with a success, with an error of a terminal kind, and
  with any error when the ceiling is reached.  `Policy.judge` knows the ceiling only
  through a count that stops growing; `judge_eq_again_iff` and `IsLast.judge_eq` say that
  this makes no difference, since there is no ceiling above the greatest count.  What is
  left is that a call ends with the first attempt that has one of the three ways
  (`endsAt_iff`).
-/
import PluginHost.Call
import PluginHost.Proofs.Retry

namespace PluginHost
namespace Retry

variable {σ α : Type}

/-! ## Whoever is called -/

/-- Whoever is called, in a state `σ`.  What comes of an attempt, and how long it takes,
    may depend on all attempts before it. -/
abbrev Callee (σ : Type) := Call → σ → Attempt Answer × σ

namespace Callee

/-- The callee, with all that it was asked. -/
def noted (callee : Callee σ) : Callee (σ × List Call) := fun c s =>
  let (a, s') := callee c s.1
  (a, s', s.2 ++ [c])

/-- How the attempt of an index goes, if every attempt before it has asked the same. -/
def attempt (callee : Callee σ) (c : Call) (s : σ) (index : Nat) : Attempt Answer :=
  (callee c (found (callee c) s index)).1

variable (callee : Callee σ) (c : Call) (s : σ) (log : List Call)

theorem noted_apply : callee.noted c (s, log) =
    ((callee c s).1, (callee c s).2, log ++ [c]) :=
  rfl

/-- To note what is asked changes nothing. -/
theorem found_noted (n : Nat) :
    found (callee.noted c) (s, log) n = (found (callee c) s n, log ++ List.replicate n c) := by
  induction n generalizing s log with
  | zero => simp [found]
  | succ n ih =>
    have hlog : log ++ [c] ++ List.replicate n c = log ++ List.replicate (n + 1) c := by
      rw [List.append_assoc]
      rfl
    show found (callee.noted c) (callee.noted c (s, log)).2 n = _
    rw [noted_apply, ih, hlog]
    rfl

theorem attempt_noted (n : Nat) :
    (callee.noted c (found (callee.noted c) (s, log) n)).1 = callee.attempt c s n := by
  rw [found_noted]
  rfl

theorem due_noted (interval now n : Nat) :
    due interval (callee.noted c) now (s, log) n = due interval (callee c) now s n := by
  induction n generalizing now s log with
  | zero => rfl
  | succ n ih =>
    show due interval (callee.noted c) _ (callee.noted c (s, log)).2 n = _
    rw [noted_apply]
    exact ih _ _ _

end Callee

/-! ## The last attempt -/

/-- The policy of an interval, a ceiling and terminal kinds of errors. -/
def policyOf (interval : Nat) (ceiling : Option UInt32) (terminal : List Error.Kind) : Policy where
  interval := interval
  maxAttempts := ceiling.map (·.toNat)
  terminal := terminal

variable {terminal : List Error.Kind} {ceiling : Option UInt32} {interval n : Nat}

/-- What comes of the attempt of an index is a reason to make no other one. -/
inductive Closes (terminal : List Error.Kind) (ceiling : Option UInt32) (index : Nat) :
    Except Error α → Prop
  | success (a : α) : Closes terminal ceiling index (.ok a)
  | terminal {e : Error} (h : e.kind ∈ terminal) : Closes terminal ceiling index (.error e)
  | ceiling {e : Error} (h : Reached ceiling (index + 1)) : Closes terminal ceiling index (.error e)

/-- The attempt of an index is the first one with such a reason. -/
structure IsLast (terminal : List Error.Kind) (ceiling : Option UInt32)
    (outcome : Nat → Except Error α) (n : Nat) : Prop where
  closes : Closes terminal ceiling n (outcome n)
  earlier : ∀ i < n, ¬ Closes terminal ceiling i (outcome i)

theorem closes_error_iff {e : Error} :
    Closes terminal ceiling n (.error e : Except Error α) ↔
      e.kind ∈ terminal ∨ Reached ceiling (n + 1) := by
  constructor
  · intro h
    cases h with
    | terminal h => exact .inl h
    | ceiling h => exact .inr h
  · intro h
    cases h with
    | inl h => exact .terminal h
    | inr h => exact .ceiling h

/-- What a policy makes of an error that is not terminal. -/
theorem judge_error {e : Error} (h : e.kind ∉ terminal) :
    (policyOf interval ceiling terminal).judge (countAt n) (.error e : Except Error α)
      = if Reached ceiling (n + 1) then .finish (.error (.retriesExhausted (countAt n) e))
        else .again := by
  have hkind : ¬ (policyOf interval ceiling terminal).isTerminal e.kind = true := by
    simpa [Policy.isTerminal, policyOf] using h
  rw [Policy.judge, if_neg hkind]
  cases ceiling with
  | none => rfl
  | some limit =>
    have hreached : Reached (some limit) (n + 1) ↔ limit.toNat ≤ countAt n := by
      rw [← reached_countAt_iff]
      simp [Reached]
    simp only [policyOf, Option.map_some, hreached]

theorem judge_terminal {e : Error} (h : e.kind ∈ terminal) (count : Nat) :
    (policyOf interval ceiling terminal).judge count (.error e : Except Error α)
      = .finish (.error e) := by
  have hkind : (policyOf interval ceiling terminal).isTerminal e.kind = true := by
    simpa [Policy.isTerminal, policyOf] using h
  rw [Policy.judge, if_pos hkind]

/-- Another attempt is made exactly if there is no reason not to. -/
theorem judge_eq_again_iff {outcome : Except Error α} :
    (policyOf interval ceiling terminal).judge (countAt n) outcome = .again ↔
      ¬ Closes terminal ceiling n outcome := by
  cases outcome with
  | ok a =>
    have hcloses : Closes terminal ceiling n (.ok a : Except Error α) := .success a
    simp [Policy.judge, hcloses]
  | error e =>
    rw [closes_error_iff]
    by_cases hkind : e.kind ∈ terminal
    · rw [judge_terminal hkind]
      simp [hkind]
    · rw [judge_error hkind]
      by_cases hreached : Reached ceiling (n + 1) <;> simp [hkind, hreached]

/-- What a call comes to with its last attempt. -/
def verdict (terminal : List Error.Kind) (n : Nat) : Except Error α → Except Error α
  | .ok a => .ok a
  | .error e => if e.kind ∈ terminal then .error e else .error (.retriesExhausted (n + 1) e)

theorem IsLast.not_reached {outcome : Nat → Except Error α}
    (h : IsLast terminal ceiling outcome n) : ∀ i < n, ¬ Reached ceiling (i + 1) := by
  intro i hi hreached
  apply h.earlier i hi
  -- A ceiling that is reached closes whatever the outcome is.
  cases outcome i with
  | ok a => exact .success a
  | error e => exact .ceiling hreached

/-- If the ceiling ends a call, then with the attempt that it allows last, and with the
    first one if it allows none. -/
theorem count_of_reached {m : UInt32} (hbefore : ∀ i < n, ¬ Reached (some m) (i + 1))
    (h : Reached (some m) (n + 1)) : n + 1 = max 1 m.toNat := by
  have hreached (k : Nat) : Reached (some m) k ↔ m.toNat ≤ k := by simp [Reached]
  rw [hreached] at h
  cases n with
  | zero => omega
  | succ n =>
    have hlast := hbefore n (Nat.lt_succ_self n)
    rw [hreached] at hlast
    omega

theorem IsLast.judge_eq {outcome : Nat → Except Error α} (h : IsLast terminal ceiling outcome n) :
    (policyOf interval ceiling terminal).judge (countAt n) (outcome n)
      = .finish (verdict terminal n (outcome n)) := by
  have hcloses := h.closes
  cases houtcome : outcome n with
  | ok a => rfl
  | error e =>
    rw [houtcome, closes_error_iff] at hcloses
    rw [verdict]
    by_cases hkind : e.kind ∈ terminal
    · rw [judge_terminal hkind, if_pos hkind]
    · have hreached : Reached ceiling (n + 1) := hcloses.resolve_left hkind
      -- The count has not stopped growing before the ceiling is reached.
      have hcount : countAt n = n + 1 := countAt_eq h.not_reached hreached
      rw [judge_error hkind, if_pos hreached, if_neg hkind, hcount]

/-- A call ends with an attempt exactly if that is the last one. -/
theorem endsAt_iff {attempt : σ → Attempt α × σ} {now : Nat} {s s' : σ} {run : Run α} :
    EndsAt (policyOf interval ceiling terminal) attempt 0 now s n run s' ↔
      IsLast terminal ceiling (fun i => (attempt (found attempt s i)).1.outcome) n ∧
        run = ⟨(List.range (n + 1)).map (due interval attempt now s),
          verdict terminal n (attempt (found attempt s n)).1.outcome,
          due interval attempt now s n + (attempt (found attempt s n)).1.elapsed⟩ ∧
        s' = found attempt s (n + 1) := by
  constructor
  · rintro ⟨hagain, hfinish, hstarts, hfinished, hleft⟩
    simp only [Nat.zero_add] at hagain hfinish
    have hlast : IsLast terminal ceiling (fun i => (attempt (found attempt s i)).1.outcome) n := by
      refine ⟨?_, fun i hi => judge_eq_again_iff.1 (hagain i hi)⟩
      apply Classical.byContradiction
      intro hopen
      rw [judge_eq_again_iff.2 hopen] at hfinish
      cases hfinish
    have hresult : (policyOf interval ceiling terminal).judge (countAt n) _
        = .finish (verdict terminal n _) := hlast.judge_eq
    rw [hfinish] at hresult
    refine ⟨hlast, ?_, hleft⟩
    cases run
    cases hresult
    cases hstarts
    cases hfinished
    rfl
  · rintro ⟨hlast, rfl, rfl⟩
    refine ⟨fun i hi => ?_, ?_, rfl, rfl, rfl⟩
    · rw [Nat.zero_add]
      exact judge_eq_again_iff.2 (hlast.earlier i hi)
    · rw [Nat.zero_add]
      exact hlast.judge_eq

/-! ## The whole call -/

/-- How a call goes whose last attempt has an index, given how each attempt goes.  The
    attempts are due at the moments `due`. -/
structure Completes (terminal : List Error.Kind) (ceiling : Option UInt32) (interval now : Nat)
    (attempt : Nat → Attempt Answer) (n : Nat) (run : Run Answer) (due : Nat → Nat) : Prop where
  first : due 0 = now
  /-- Each attempt starts one interval after the one before it has ended. -/
  next : ∀ i, due (i + 1) = due i + (attempt i).elapsed + interval
  starts : run.starts = (List.range (n + 1)).map due
  finish : run.finish = due n + (attempt n).elapsed
  success : ∀ a, (attempt n).outcome = .ok a → run.result = .ok a
  /-- A terminal error is returned as it is, also by the last attempt that is allowed. -/
  refused : ∀ e, (attempt n).outcome = .error e → e.kind ∈ terminal → run.result = .error e
  exhausted : ∀ e, (attempt n).outcome = .error e → e.kind ∉ terminal →
    run.result = .error (.retriesExhausted (n + 1) e) ∧
      ∃ m, ceiling = some m ∧ n + 1 = max 1 m.toNat

theorem IsLast.completes {attempt : Nat → Attempt Answer} {now : Nat} {due : Nat → Nat}
    (h : IsLast terminal ceiling (fun i => (attempt i).outcome) n) (hfirst : due 0 = now)
    (hnext : ∀ i, due (i + 1) = due i + (attempt i).elapsed + interval) :
    Completes terminal ceiling interval now attempt n
      ⟨(List.range (n + 1)).map due, verdict terminal n (attempt n).outcome,
        due n + (attempt n).elapsed⟩ due where
  first := hfirst
  next := hnext
  starts := rfl
  finish := rfl
  success a ha := by simp [ha, verdict]
  refused e he hkind := by simp [he, verdict, hkind]
  exhausted e he hkind := by
    refine ⟨by simp [he, verdict, hkind], ?_⟩
    have hcloses := h.closes
    simp only [he] at hcloses
    have hreached := (closes_error_iff.1 hcloses).resolve_left hkind
    cases hm : ceiling with
    | none =>
      rw [hm] at hreached
      obtain ⟨m, hmem, -⟩ := hreached
      cases hmem
    | some m =>
      have hbefore := h.not_reached
      rw [hm] at hreached hbefore
      exact ⟨m, rfl, count_of_reached hbefore hreached⟩

/-- A call ends with the first attempt that succeeds, that fails with an error of a
    terminal kind, or that is the last one the ceiling allows.  Up to then it asks the
    same each time, one interval after the last answer, and it makes no attempt more.  If
    there is no such attempt it goes on for ever. -/
theorem retried_up_to_last (callee : Callee σ) (c : Call) (interval : Nat)
    (ceiling : Option UInt32) (terminal : List Error.Kind) (now : Nat) (s : σ) :
    (∀ n, IsLast terminal ceiling (fun i => (callee.attempt c s i).outcome) n →
      ∃ run due s', Completes terminal ceiling interval now (callee.attempt c s) n run due ∧
        ∀ fuel, (policyOf interval ceiling terminal).runFrom (callee.noted c) fuel 0 now (s, [])
          = if n < fuel then some (run, s', List.replicate (n + 1) c) else none) ∧
    ((∀ n, ¬ IsLast terminal ceiling (fun i => (callee.attempt c s i).outcome) n) →
      ∀ fuel, (policyOf interval ceiling terminal).runFrom (callee.noted c) fuel 0 now (s, [])
        = none) := by
  have hends : ∀ {fuel run t}, (policyOf interval ceiling terminal).runFrom (callee.noted c) fuel 0
      now (s, []) = some (run, t) ↔ ∃ n < fuel,
        IsLast terminal ceiling (fun i => (callee.attempt c s i).outcome) n ∧
        run = ⟨(List.range (n + 1)).map (due interval (callee c) now s),
          verdict terminal n (callee.attempt c s n).outcome,
          due interval (callee c) now s n + (callee.attempt c s n).elapsed⟩ ∧
        t = (found (callee c) s (n + 1), List.replicate (n + 1) c) := by
    intro fuel run t
    rw [runFrom_eq_some_iff]
    simp only [endsAt_iff, Callee.attempt_noted]
    simp only [Callee.found_noted, List.nil_append]
    have hdue : due interval (callee.noted c) now (s, []) = due interval (callee c) now s :=
      funext (callee.due_noted c s [] interval now)
    rw [hdue]
  constructor
  · intro n hlast
    refine ⟨_, due interval (callee c) now s, found (callee c) s (n + 1),
      hlast.completes rfl (due_succ interval (callee c) now s), fun fuel => ?_⟩
    by_cases hfuel : n < fuel
    · rw [if_pos hfuel]
      exact hends.2 ⟨n, hfuel, hlast, rfl, rfl⟩
    · rw [if_neg hfuel]
      -- With fewer attempts the call could only end with an earlier one.
      rw [Option.eq_none_iff_forall_not_mem]
      rintro ⟨run, t⟩ hsome
      obtain ⟨m, hm, hother, -⟩ := hends.1 hsome
      have hmn : m < n := by omega
      exact hlast.earlier m hmn hother.closes
  · intro hnone fuel
    rw [Option.eq_none_iff_forall_not_mem]
    rintro ⟨run, t⟩ hsome
    obtain ⟨m, -, hlast, -⟩ := hends.1 hsome
    exact hnone m hlast

/-! ## A callee that is not there yet -/

/-- It cannot be reached at first, each time for five milliseconds, and then refuses. -/
def late (failures : Nat) : Callee Nat := fun _ count =>
  if count < failures then ({ elapsed := 5, outcome := .error (.requestFailed "down") }, count + 1)
  else ({ outcome := .error (.pingRefused 500) }, count + 1)

/-- The third attempt is the last that the ceiling allows, and is refused: that is what the
    call comes to.  Without a ceiling, and with no kind of error that is terminal, the same
    call does not end. -/
theorem late_refused :
    (∃ run s', (policyOf 1000 (some 3) [.pingRefused]).runFrom ((late 2).noted .ping) 3 0 0 (0, [])
        = some (run, s', [.ping, .ping, .ping]) ∧
      run.starts = [0, 1005, 2010] ∧ run.result = .error (.pingRefused 500)) ∧
    ∀ fuel, (policyOf 1000 none []).runFrom ((late 2).noted .ping) fuel 0 0 (0, []) = none := by
  constructor
  · have hlast : IsLast [.pingRefused] (some 3)
        (fun i => ((late 2).attempt .ping 0 i).outcome) 2 := by
      refine ⟨.terminal (by decide), fun i hi hcloses => ?_⟩
      have hopen : ∀ j < 2, ¬ (Error.Kind.requestFailed ∈ [Error.Kind.pingRefused] ∨
          Reached (some 3) (j + 1)) := by decide
      have hfailed : ((late 2).attempt .ping 0 i).outcome = .error (.requestFailed "down") := by
        obtain rfl | rfl : i = 0 ∨ i = 1 := by omega
        · rfl
        · rfl
      rw [hfailed] at hcloses
      exact hopen i hi (closes_error_iff.1 hcloses)
    obtain ⟨run, due, s', hrun, hfuel⟩ :=
      (retried_up_to_last (late 2) .ping 1000 (some 3) [.pingRefused] 0 0).1 2 hlast
    have hfirst : due 1 = 1005 := by
      rw [hrun.next, hrun.first]
      rfl
    have hsecond : due 2 = 2010 := by
      rw [hrun.next, hfirst]
      rfl
    refine ⟨run, s', hfuel 3, ?_, hrun.refused _ rfl (by decide)⟩
    rw [hrun.starts]
    show [due 0, due 1, due 2] = _
    rw [hrun.first, hfirst, hsecond]
  · apply (retried_up_to_last (late 2) .ping 1000 none [] 0 0).2
    intro n hlast
    have hcloses := hlast.closes
    -- Every attempt fails, and no error is terminal.
    cases houtcome : ((late 2).attempt .ping 0 n).outcome with
    | ok a =>
      rw [Callee.attempt, late] at houtcome
      split at houtcome <;> cases houtcome
    | error e =>
      rw [houtcome, closes_error_iff] at hcloses
      rcases hcloses with hkind | ⟨m, hm, -⟩
      · cases hkind
      · cases hm

end Retry
end PluginHost
