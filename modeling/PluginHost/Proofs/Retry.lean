/-
  PluginHost.Proofs.Retry

  With which attempt a call ends.  The attempts go one after another, each from the
  state that the one before it has left, and the call ends with the first one after
  which the policy does not ask for another (`runFrom_eq_some_iff`).  What the policy
  with the usual terminal kinds asks for depends on the kind of the error and on the
  ceiling (`Classified`).
-/
import PluginHost.Call.Retry

namespace PluginHost

namespace Retry

variable {α σ : Type}

/-- What the attempt of an index finds if the first one finds `s`. -/
def found (attempt : σ → Attempt α × σ) (s : σ) : Nat → σ
  | 0 => s
  | n + 1 => found attempt (attempt s).2 n

/-- When it is due if the first one is due at `now`. -/
def due (interval : Nat) (attempt : σ → Attempt α × σ) (now : Nat) (s : σ) : Nat → Nat
  | 0 => now
  | n + 1 => due interval attempt (now + (attempt s).1.elapsed + interval) (attempt s).2 n

theorem found_succ (attempt : σ → Attempt α × σ) (s : σ) (n : Nat) :
    found attempt s (n + 1) = (attempt (found attempt s n)).2 := by
  induction n generalizing s with
  | zero => rfl
  | succ n ih => exact ih (attempt s).2

/-- An attempt is due one interval after the one before it has ended. -/
theorem due_succ (interval : Nat) (attempt : σ → Attempt α × σ) (now : Nat) (s : σ) (n : Nat) :
    due interval attempt now s (n + 1)
      = due interval attempt now s n + (attempt (found attempt s n)).1.elapsed + interval := by
  induction n generalizing now s with
  | zero => rfl
  | succ n ih => exact ih (now + (attempt s).1.elapsed + interval) (attempt s).2

/-- A call from the attempt of an index on that ends `n` attempts later. -/
structure EndsAt (p : Policy) (attempt : σ → Attempt α × σ) (index now : Nat) (s : σ) (n : Nat)
    (run : Run α) (s' : σ) : Prop where
  again : ∀ i < n,
    p.judge (countAt (index + i)) (attempt (found attempt s i)).1.outcome = .again
  finish : p.judge (countAt (index + n)) (attempt (found attempt s n)).1.outcome
    = .finish run.result
  starts : run.starts = (List.range (n + 1)).map (due p.interval attempt now s)
  finished : run.finish
    = due p.interval attempt now s n + (attempt (found attempt s n)).1.elapsed
  left : s' = found attempt s (n + 1)

variable {p : Policy} {attempt : σ → Attempt α × σ} {index now n : Nat} {s s' : σ} {run : Run α}

theorem endsAt_zero_iff :
    EndsAt p attempt index now s 0 run s' ↔
      ∃ result, p.judge (countAt index) (attempt s).1.outcome = .finish result ∧
        run = ⟨[now], result, now + (attempt s).1.elapsed⟩ ∧ s' = (attempt s).2 := by
  constructor
  · rintro ⟨-, hfinish, hstarts, hfinished, hleft⟩
    refine ⟨run.result, hfinish, ?_, hleft⟩
    cases run
    cases hstarts
    cases hfinished
    rfl
  · rintro ⟨result, hfinish, rfl, rfl⟩
    exact ⟨fun _ h => absurd h (Nat.not_lt_zero _), hfinish, rfl, rfl, rfl⟩

theorem endsAt_succ_iff :
    EndsAt p attempt index now s (n + 1) run s' ↔
      p.judge (countAt index) (attempt s).1.outcome = .again ∧
        ∃ later, EndsAt p attempt (index + 1) (now + (attempt s).1.elapsed + p.interval)
            (attempt s).2 n later s' ∧
          run = { later with starts := now :: later.starts } := by
  have hrange : ∀ f : Nat → Nat, (List.range (n + 2)).map f
      = f 0 :: (List.range (n + 1)).map fun i => f (i + 1) := fun f => by
    rw [List.range_succ_eq_map, List.map_cons, List.map_map]
    rfl
  have hindex : ∀ i, index + 1 + i = index + (i + 1) := fun i => by omega
  -- The attempt of an index is that of the index before it in the later call, and finds
  -- the same.
  constructor
  · rintro ⟨hagain, hfinish, hstarts, hfinished, hleft⟩
    refine ⟨hagain 0 (Nat.succ_pos n), ⟨(List.range (n + 1)).map _, run.result, run.finish⟩,
      ⟨fun i hi => ?_, ?_, rfl, hfinished, hleft⟩, ?_⟩
    · rw [hindex]
      exact hagain (i + 1) (Nat.succ_lt_succ hi)
    · rw [hindex]
      exact hfinish
    · cases run
      rw [hrange] at hstarts
      cases hstarts
      rfl
  · rintro ⟨hfirst, later, ⟨hagain, hfinish, hstarts, hfinished, hleft⟩, rfl⟩
    refine ⟨fun i hi => ?_, ?_, ?_, hfinished, hleft⟩
    · cases i with
      | zero => exact hfirst
      | succ i =>
        rw [← hindex]
        exact hagain i (Nat.lt_of_succ_lt_succ hi)
    · rw [← hindex]
      exact hfinish
    · rw [hrange]
      exact congrArg (now :: ·) hstarts

/-- A call ends within a number of attempts exactly if one of them ends it. -/
theorem runFrom_eq_some_iff {fuel : Nat} :
    p.runFrom attempt fuel index now s = some (run, s') ↔
      ∃ n < fuel, EndsAt p attempt index now s n run s' := by
  induction fuel generalizing index now s run s' with
  | zero =>
    refine ⟨fun h => ?_, fun ⟨n, hn, _⟩ => absurd hn (Nat.not_lt_zero n)⟩
    cases h
  | succ fuel ih =>
    -- The first attempt ends the call, or the rest of the fuel is for what follows it.
    have hstep : (∃ n < fuel + 1, EndsAt p attempt index now s n run s') ↔
        EndsAt p attempt index now s 0 run s' ∨
          ∃ n < fuel, EndsAt p attempt index now s (n + 1) run s' :=
      Nat.exists_lt_succ_left
    rw [hstep, endsAt_zero_iff]
    simp only [endsAt_succ_iff, Policy.runFrom]
    cases hjudge : p.judge (countAt index) (attempt s).1.outcome with
    | finish result =>
      simp only [reduceCtorEq, false_and, and_false, exists_false, or_false, Option.some.injEq,
        Prod.mk.injEq, Verdict.finish.injEq, exists_eq_left']
      exact ⟨fun ⟨hrun, hs⟩ => ⟨hrun.symm, hs.symm⟩, fun ⟨hrun, hs⟩ => ⟨hrun.symm, hs.symm⟩⟩
    | again =>
      simp only [reduceCtorEq, false_and, exists_false, false_or, true_and]
      constructor
      · intro h
        obtain ⟨⟨later, left⟩, hlater, hrun⟩ := Option.bind_eq_some_iff.1 h
        cases hrun
        obtain ⟨n, hn, hends⟩ := ih.1 hlater
        exact ⟨n, hn, later, hends, rfl⟩
      · rintro ⟨n, hn, later, hends, rfl⟩
        exact Option.bind_eq_some_iff.2 ⟨(later, s'), ih.2 ⟨n, hn, hends⟩, rfl⟩

/-! ## Which attempt is the last -/

/-- If a call is made again after an outcome, but is over when it comes to the same once
    more, it is the ceiling that has ended it. -/
theorem Policy.lt_of_judge {p : Policy} {outcome result : Except Error α} {m : Nat}
    (hagain : p.judge (countAt m) outcome = .again)
    (hfinish : p.judge (countAt (m + 1)) outcome = .finish result) :
    m < p.maxAttempts.getD 0 := by
  cases outcome with
  | ok a => cases hagain
  | error e =>
    rw [Policy.judge] at hagain hfinish
    split at hagain
    · cases hagain
    · rename_i hkind
      rw [if_neg hkind] at hfinish
      cases hmax : p.maxAttempts with
      | none =>
        rw [hmax] at hfinish
        cases hfinish
      | some limit =>
        simp only [hmax] at hagain hfinish
        have hbefore : ¬ limit ≤ countAt m := by
          intro hle
          rw [if_pos hle] at hagain
          cases hagain
        have hafter : limit ≤ countAt (m + 1) := by
          refine Nat.le_of_not_lt fun hlt => ?_
          rw [if_neg (Nat.not_le.2 hlt)] at hfinish
          cases hfinish
        rw [countAt] at hbefore hafter
        rw [Option.getD_some]
        omega

/-- The policy with the usual terminal kinds of errors. -/
def usualPolicy (interval : Nat) (ceiling : Option UInt32) : Policy where
  interval := interval
  maxAttempts := ceiling.map (·.toNat)

/-- Whether a number of attempts is all that a ceiling allows. -/
def Reached (ceiling : Option UInt32) (count : Nat) : Prop :=
  ∃ limit ∈ ceiling, limit.toNat ≤ count

instance (ceiling : Option UInt32) (count : Nat) : Decidable (Reached ceiling count) :=
  inferInstanceAs (Decidable (∃ limit ∈ ceiling, _))

/-- The count stops at the greatest ceiling that there is, so no ceiling is missed. -/
theorem reached_countAt_iff {ceiling : Option UInt32} {n : Nat} :
    Reached ceiling (countAt n) ↔ Reached ceiling (n + 1) := by
  refine exists_congr fun limit => and_congr_right fun _ => ?_
  have hlimit : limit.toNat ≤ maxCount := Nat.le_sub_one_of_lt limit.toNat_lt
  rw [countAt]
  omega

theorem countAt_eq {ceiling : Option UInt32} {n : Nat}
    (hbefore : ∀ i < n, ¬ Reached ceiling (i + 1)) (h : Reached ceiling (n + 1)) :
    countAt n = n + 1 := by
  obtain ⟨limit, hmem, hlimit⟩ := h
  -- The attempt before it was below the ceiling, so the count has not stopped yet.
  have hsmall : n + 1 ≤ maxCount := by
    cases n with
    | zero => decide
    | succ n =>
      have hlt : n + 1 < limit.toNat := Nat.lt_of_not_le fun hle =>
        hbefore n (Nat.lt_succ_self n) ⟨limit, hmem, hle⟩
      have hlast : limit.toNat ≤ maxCount := Nat.le_sub_one_of_lt limit.toNat_lt
      omega
  rw [countAt]
  omega

/-- What may come of an attempt: a result that ends the call, or an error after which it
    is made again. -/
structure Classified (outcome : Except Error α) (again : Error → Prop)
    (ends : Except Error α → Prop) : Prop where
  covered : (∃ result, ends result) ∨ ∃ e, again e
  of_ends : ∀ result, ends result → outcome = result ∧
    ∀ e, result = .error e → ({} : Policy).isTerminal e.kind = true
  of_again : ∀ e, again e → outcome = .error e ∧ ({} : Policy).isTerminal e.kind = false

namespace Classified

variable {outcome : Except Error α} {again : Error → Prop} {ends : Except Error α → Prop}

theorem judge_of_ends (h : Classified outcome again ends) (interval : Nat)
    (ceiling : Option UInt32) (n : Nat) {result : Except Error α} (hends : ends result) :
    (usualPolicy interval ceiling).judge (countAt n) outcome = .finish result := by
  obtain ⟨rfl, hterminal⟩ := h.of_ends result hends
  cases outcome with
  | ok a => rfl
  | error e => exact if_pos (hterminal e rfl)

theorem judge_of_again (h : Classified outcome again ends) (interval : Nat)
    (ceiling : Option UInt32) (n : Nat) {e : Error} (hagain : again e) :
    (usualPolicy interval ceiling).judge (countAt n) outcome =
      if Reached ceiling (n + 1) then .finish (.error (.retriesExhausted (countAt n) e))
      else .again := by
  obtain ⟨rfl, hterminal⟩ := h.of_again e hagain
  have hkind : ¬ (usualPolicy interval ceiling).isTerminal e.kind = true := by
    intro hyes
    exact absurd (hyes.symm.trans hterminal) (by decide)
  rw [Policy.judge, if_neg hkind]
  cases ceiling with
  | none => rfl
  | some limit =>
    have hreached : Reached (some limit) (n + 1) ↔ limit.toNat ≤ countAt n := by
      rw [← reached_countAt_iff]
      simp [Reached]
    simp only [usualPolicy, Option.map_some, hreached]

theorem judge_eq_again_iff (h : Classified outcome again ends) (interval : Nat)
    (ceiling : Option UInt32) (n : Nat) :
    (usualPolicy interval ceiling).judge (countAt n) outcome = .again ↔
      (∃ e, again e) ∧ ¬ Reached ceiling (n + 1) := by
  constructor
  · intro hjudge
    obtain ⟨result, hends⟩ | ⟨e, hagain⟩ := h.covered
    · rw [h.judge_of_ends interval ceiling n hends] at hjudge
      cases hjudge
    · refine ⟨⟨e, hagain⟩, fun hreached => ?_⟩
      rw [h.judge_of_again interval ceiling n hagain, if_pos hreached] at hjudge
      cases hjudge
  · rintro ⟨⟨e, hagain⟩, hreached⟩
    rw [h.judge_of_again interval ceiling n hagain, if_neg hreached]

theorem judge_eq_finish_iff (h : Classified outcome again ends) (interval : Nat)
    (ceiling : Option UInt32) (n : Nat) {result : Except Error α} :
    (usualPolicy interval ceiling).judge (countAt n) outcome = .finish result ↔
      ends result ∨ ∃ e, again e ∧ Reached ceiling (n + 1) ∧
        result = .error (.retriesExhausted (countAt n) e) := by
  constructor
  · intro hjudge
    obtain ⟨result', hends⟩ | ⟨e, hagain⟩ := h.covered
    · rw [h.judge_of_ends interval ceiling n hends] at hjudge
      cases hjudge
      exact .inl hends
    · rw [h.judge_of_again interval ceiling n hagain] at hjudge
      split at hjudge
      · rename_i hreached
        cases hjudge
        exact .inr ⟨e, hagain, hreached, rfl⟩
      · cases hjudge
  · rintro (hends | ⟨e, hagain, hreached, rfl⟩)
    · exact h.judge_of_ends interval ceiling n hends
    · rw [h.judge_of_again interval ceiling n hagain, if_pos hreached]

end Classified

/-- When an attempt is due if the first one is due at `now` and each takes as long as
    `elapsed` says. -/
def schedule (interval : Nat) (elapsed : Nat → Nat) (now : Nat) : Nat → Nat
  | 0 => now
  | n + 1 => schedule interval elapsed now n + elapsed n + interval

theorem schedule_le_schedule (interval : Nat) (elapsed : Nat → Nat) (now : Nat) {m n : Nat}
    (h : m ≤ n) : schedule interval elapsed now m ≤ schedule interval elapsed now n := by
  induction h with
  | refl => exact Nat.le_refl _
  | step _ ih =>
    rw [schedule]
    omega

/-- An attempt has ended when a later one is due. -/
theorem schedule_add_elapsed_le (interval : Nat) (elapsed : Nat → Nat) (now : Nat) {m n : Nat}
    (h : m < n) : schedule interval elapsed now m + elapsed m ≤ schedule interval elapsed now n := by
  have hnext := schedule_le_schedule interval elapsed now (Nat.succ_le_of_lt h)
  rw [schedule] at hnext
  omega

theorem due_eq_schedule (interval : Nat) (attempt : σ → Attempt α × σ) (now : Nat) (s : σ)
    (n : Nat) : due interval attempt now s n
      = schedule interval (fun i => (attempt (found attempt s i)).1.elapsed) now n := by
  induction n with
  | zero => rfl
  | succ n ih => rw [due_succ, ih, schedule]

/-! ## Calls that are given up -/

section
variable {limit fuel : Nat}

theorem Policy.runUntil_of_limit_le (h : limit ≤ now) :
    p.runUntil attempt limit fuel index now s = {} := by
  cases fuel with
  | zero => rfl
  | succ fuel => rw [runUntil, if_pos h]

/-- The time is over before the attempt has ended. -/
theorem Policy.runUntil_of_late (hnow : ¬ limit ≤ now)
    (h : limit ≤ now + (attempt s).1.elapsed) :
    p.runUntil attempt limit (fuel + 1) index now s = { starts := [now] } := by
  rw [runUntil, if_neg hnow]
  exact if_pos h

theorem Policy.runUntil_of_finish {result : Except Error α} (hnow : ¬ limit ≤ now)
    (htime : ¬ limit ≤ now + (attempt s).1.elapsed)
    (h : p.judge (countAt index) (attempt s).1.outcome = .finish result) :
    p.runUntil attempt limit (fuel + 1) index now s
      = { starts := [now], ended := some (result, now + (attempt s).1.elapsed) } := by
  rw [runUntil, if_neg hnow]
  simp only [if_neg htime, h]

theorem Policy.runUntil_of_again (hnow : ¬ limit ≤ now)
    (htime : ¬ limit ≤ now + (attempt s).1.elapsed)
    (h : p.judge (countAt index) (attempt s).1.outcome = .again) :
    let later := p.runUntil attempt limit fuel (index + 1)
      (now + (attempt s).1.elapsed + p.interval) (attempt s).2
    p.runUntil attempt limit (fuel + 1) index now s
      = { later with starts := now :: later.starts } := by
  rw [runUntil, if_neg hnow]
  simp only [if_neg htime, h]

end

/-- How a call goes whose last attempt has an index: after the attempts before it the
    call is made again, and the last one ends it or is all that the ceiling allows. -/
structure Course (interval : Nat) (ceiling : Option UInt32) (again : Nat → Error → Prop)
    (ends : Nat → Except Error α → Prop) (elapsed : Nat → Nat) (now n : Nat) (run : Run α) :
    Prop where
  earlier : ∀ i < n, (∃ e, again i e) ∧ ¬ Reached ceiling (i + 1)
  last : ends n run.result ∨ ∃ e, again n e ∧ Reached ceiling (n + 1) ∧
    run.result = .error (.retriesExhausted (n + 1) e)
  starts : run.starts = (List.range (n + 1)).map (schedule interval elapsed now)
  finish : run.finish = schedule interval elapsed now n + elapsed n

end Retry

end PluginHost
