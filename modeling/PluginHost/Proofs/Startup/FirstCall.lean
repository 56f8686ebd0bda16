/-
  PluginHost.Proofs.Startup.FirstCall

  The first call of a plugin, as it goes on while other things do.  An attempt is due; it is
  made; and an answer comes, which ends the call or has it made again after a wait.  When
  ten seconds are over, the call is given up, whatever is under way.

  All of this happens at moments of the call's own (`FirstCall.next`).  What happens at a
  moment is taken note of when the clock has come to it, at once or later: whoever looks
  after the call may be kept from it by other work, but the answers have come when they
  have come.  So a step is possible once its moment has passed, and what the call comes to
  depends on the answers alone (`UnderWay.greets`).
-/
import PluginHost.CommandLine.Serve
import PluginHost.Proofs.Wire.Retrying

namespace PluginHost

open CommandLine

/-- A first call that is under way. -/
structure FirstCall (σ : Type) where
  line : CallLine
  /-- When it was begun. -/
  began : Nat
  /-- The index of the attempt that is due next, or is being made. -/
  index : Nat := 0
  /-- When this attempt is due. -/
  due : Nat
  isMade : Bool := false
  /-- The other ends, as this attempt finds them. -/
  ends : σ

namespace FirstCall

variable {σ κ : Type} {wire : Wire σ κ} {now : Nat} {c c' : FirstCall σ} {l : CallLine} {s : σ}
  {g : Greeting}

/-- A call that is begun now. -/
def start (l : CallLine) (now : Nat) (s : σ) : FirstCall σ :=
  { line := l, began := now, due := now, ends := s }

/-- What comes of the attempt. -/
def attempt (wire : Wire σ κ) (c : FirstCall σ) : Retry.Attempt Answer × σ :=
  wire.attempt .ping c.line c.ends

/-- What is to be done after the attempt. -/
def verdict (wire : Wire σ κ) (c : FirstCall σ) : Retry.Verdict Answer :=
  c.line.policy.judge (Retry.countAt c.index) (c.attempt wire).1.outcome

/-- When something happens to the call next: the attempt is made, or it ends. -/
def next (wire : Wire σ κ) (c : FirstCall σ) : Nat :=
  if c.isMade then c.due + (c.attempt wire).1.elapsed else c.due

/-- When the call is given up. -/
def limit (c : FirstCall σ) : Nat :=
  c.began + pingLimit

/-- How many attempts have been made. -/
def made (c : FirstCall σ) : Nat :=
  if c.isMade then c.index + 1 else c.index

theorem made_of_isMade (h : c.isMade = true) : c.made = c.index + 1 := by
  rw [made, h, if_pos rfl]

theorem made_of_not_isMade (h : c.isMade = false) : c.made = c.index := by
  rw [made, h, if_neg Bool.false_ne_true]

theorem next_of_isMade (h : c.isMade = true) :
    c.next wire = c.due + (c.attempt wire).1.elapsed := by
  rw [next, h, if_pos rfl]

theorem next_of_not_isMade (h : c.isMade = false) : c.next wire = c.due := by
  rw [next, h, if_neg Bool.false_ne_true]

/-! ## Steps -/

/-- A call goes on by something whose moment has come, with what it does by that at the
    other ends. -/
inductive Step (wire : Wire σ κ) (now : Nat) (c : FirstCall σ) :
    FirstCall σ → List (Nat × Wire.Interaction κ) → Prop
  /-- The attempt is made. -/
  | make (hmade : c.isMade = false) (hnow : c.next wire ≤ now)
      (hlimit : c.next wire ≤ c.limit) :
      Step wire now c { c with isMade := true }
        ((wire.trace .ping c.line c.ends).map (c.due, ·))
  /-- An answer has come that does not end the call. -/
  | again (hmade : c.isMade = true) (hnow : c.next wire ≤ now)
      (hlimit : c.next wire ≤ c.limit) (hverdict : c.verdict wire = .again) :
      Step wire now c
        { c with
          index := c.index + 1
          due := c.next wire + c.line.policy.interval
          isMade := false
          ends := (c.attempt wire).2 } []

/-- What a call comes to, by something whose moment has come. -/
inductive Comes (wire : Wire σ κ) (now : Nat) (c : FirstCall σ) : Greeting → Prop
  /-- An answer has come that ends the call. -/
  | answered {result : Except Error Answer} (hmade : c.isMade = true)
      (hnow : c.next wire ≤ now) (hlimit : c.next wire ≤ c.limit)
      (hverdict : c.verdict wire = .finish result) :
      Comes wire now c (.ofCall c.line c.limit c.made (some (result, c.next wire)))
  /-- Time is over, and nothing else has happened before. -/
  | givenUp (hnow : c.limit ≤ now) (hlate : c.limit ≤ c.next wire) :
      Comes wire now c (.ofCall c.line c.limit c.made none)

/-- A call goes on until it is over. -/
inductive Ends (wire : Wire σ κ) (now : Nat) :
    FirstCall σ → List (Nat × Wire.Interaction κ) → Greeting → Prop
  | last {c : FirstCall σ} {g : Greeting} (h : c.Comes wire now g) : Ends wire now c [] g
  | step {c c' : FirstCall σ} {new later : List (Nat × Wire.Interaction κ)} {g : Greeting}
      (h : c.Step wire now c' new) (hrest : Ends wire now c' later g) :
      Ends wire now c (new ++ later) g

/-! ## What a call comes to -/

/-- When the attempts of a call are due. -/
def dueAt (wire : Wire σ κ) (l : CallLine) (s : σ) (began : Nat) : Nat → Nat :=
  Retry.schedule l.policy.interval (wire.elapsed .ping l s) began

/-- What its first attempts do at the other ends, and when. -/
def doneBy (wire : Wire σ κ) (l : CallLine) (s : σ) (began attempts : Nat) :
    List (Nat × Wire.Interaction κ) :=
  (List.range attempts).flatMap fun i =>
    (wire.trace .ping l (wire.before .ping l s i)).map (dueAt wire l s began i, ·)

/-- What a call comes to whose last attempt has an index: what the attempts make of it, if
    that is known in time. -/
inductive Greets (wire : Wire σ κ) (l : CallLine) (s : σ) (began n : Nat) : Greeting → Prop
  | answered {run : Retry.Run Answer} (h : wire.Ends l .ping began s n run)
      (hlimit : run.finish ≤ began + pingLimit) :
      Greets wire l s began n
        (.ofCall l (began + pingLimit) (n + 1) (some (run.result, run.finish)))
  | givenUp (hmade : dueAt wire l s began n ≤ began + pingLimit)
      (hnext : began + pingLimit ≤ dueAt wire l s began (n + 1))
      (hlate : ∀ m run, wire.Ends l .ping began s m run → began + pingLimit ≤ run.finish) :
      Greets wire l s began n (.ofCall l (began + pingLimit) (n + 1) none)

/-- What holds of a call under way that has been made over a line: the answers so far have
    all been such that it goes on. -/
structure UnderWay (wire : Wire σ κ) (l : CallLine) (s : σ)
    (done : List (Nat × Wire.Interaction κ)) (c : FirstCall σ) : Prop where
  line : c.line = l
  ends : c.ends = wire.before .ping l s c.index
  due : c.due = dueAt wire l s c.began c.index
  again : ∀ i < c.index, l.policy.judge (Retry.countAt i)
    (wire.attempt .ping l (wire.before .ping l s i)).1.outcome = .again
  timely : ∀ i < c.made, dueAt wire l s c.began i ≤ c.limit
  done : done = doneBy wire l s c.began c.made

theorem UnderWay.start (wire : Wire σ κ) (l : CallLine) (now : Nat) (s : σ) :
    UnderWay wire l s [] (start l now s) where
  line := rfl
  ends := rfl
  due := rfl
  again _ hi := absurd hi (Nat.not_lt_zero _)
  timely _ hi := absurd hi (Nat.not_lt_zero _)
  done := rfl

section
variable {done : List (Nat × Wire.Interaction κ)} (h : UnderWay wire l s done c)
include h

theorem UnderWay.attempt_eq :
    c.attempt wire = wire.attempt .ping l (wire.before .ping l s c.index) := by
  rw [attempt, h.line, h.ends]

theorem UnderWay.elapsed_eq : (c.attempt wire).1.elapsed = wire.elapsed .ping l s c.index := by
  rw [h.attempt_eq, Wire.elapsed]

theorem UnderWay.dueAt_succ : dueAt wire l s c.began (c.index + 1)
    = c.due + (c.attempt wire).1.elapsed + c.line.policy.interval := by
  rw [h.elapsed_eq, h.due, h.line]
  rfl

theorem UnderWay.step {new : List (Nat × Wire.Interaction κ)} (hs : c.Step wire now c' new) :
    UnderWay wire l s (done ++ new) c' := by
  cases hs with
  | make hmade hnow hlimit =>
    -- One attempt more has been made, in time, and is taken note of.
    have hdone := h.done
    have htimely := h.timely
    rw [made_of_not_isMade hmade] at hdone htimely
    rw [next_of_not_isMade hmade, h.due] at hlimit
    refine ⟨h.line, h.ends, h.due, h.again, fun i hi => ?_, ?_⟩
    · rcases Nat.lt_succ_iff_lt_or_eq.1 (show i < c.index + 1 from hi) with hlt | rfl
      · exact htimely i hlt
      · exact hlimit
    · show _ = doneBy wire l s c.began (c.index + 1)
      rw [doneBy, List.range_succ, List.flatMap_append, List.flatMap_singleton, hdone, h.line,
        h.ends, h.due, doneBy]
  | again hmade hnow hlimit hverdict =>
    -- As many attempts have been made as before, but the next one is due.
    have hold := made_of_isMade hmade
    refine ⟨h.line, ?_, ?_, fun i hi => ?_, fun i hi => h.timely i ?_, ?_⟩
    · show (c.attempt wire).2 = wire.before .ping l s (c.index + 1)
      rw [h.attempt_eq, Wire.before_succ]
    · show c.next wire + c.line.policy.interval = dueAt wire l s c.began (c.index + 1)
      rw [h.dueAt_succ, next_of_isMade hmade]
    · rcases Nat.lt_succ_iff_lt_or_eq.1 (show i < c.index + 1 from hi) with hlt | rfl
      · exact h.again i hlt
      · rw [← h.attempt_eq, ← h.line]
        exact hverdict
    · rw [hold]
      exact hi
    · rw [List.append_nil, h.done, hold]
      rfl

/-- A call does not end before something happens to it. -/
theorem UnderWay.next_le_finish {n : Nat} {run : Retry.Run Answer}
    (hends : wire.Ends l .ping c.began s n run) : c.next wire ≤ run.finish := by
  have hindex : c.index ≤ n := by
    refine Nat.le_of_not_lt fun hlt => ?_
    have hverdict := hends.finish
    rw [h.again n hlt] at hverdict
    cases hverdict
  have hfinish := hends.finished
  have hdue := Retry.schedule_le_schedule l.policy.interval (wire.elapsed .ping l s) c.began hindex
  have hindexed : c.due
      = Retry.schedule l.policy.interval (wire.elapsed .ping l s) c.began c.index := h.due
  unfold next
  split
  · rcases Nat.eq_or_lt_of_le hindex with heq | hlt
    · rw [hfinish, ← heq, h.elapsed_eq, hindexed]
    · have hlater := Retry.schedule_add_elapsed_le l.policy.interval (wire.elapsed .ping l s)
        c.began hlt
      rw [h.elapsed_eq, hindexed, hfinish]
      omega
  · omega

/-- A call comes to what its answers make of it. -/
theorem UnderWay.greets (hc : c.Comes wire now g) :
    ∃ n, Greets wire l s c.began n g ∧ done = doneBy wire l s c.began (n + 1) ∧
      ∀ i ≤ n, dueAt wire l s c.began i ≤ c.began + pingLimit := by
  cases hc with
  | @answered result hmade hnow hlimit hverdict =>
    have hold := made_of_isMade hmade
    refine ⟨c.index, ?_, hold ▸ h.done, fun i hi => h.timely i ?_⟩
    · have hends : wire.Ends l .ping c.began s c.index
          ⟨(List.range (c.index + 1)).map (dueAt wire l s c.began), result, c.next wire⟩ := by
        refine ⟨h.again, ?_, rfl, ?_⟩
        · rw [← h.attempt_eq, ← h.line]
          exact hverdict
        · rw [next_of_isMade hmade, h.elapsed_eq, h.due]
          rfl
      rw [h.line, hold]
      exact .answered hends hlimit
    · omega
  | givenUp hnow hlate =>
    have hlater (m : Nat) (run : Retry.Run Answer) (hends : wire.Ends l .ping c.began s m run) :
        c.began + pingLimit ≤ run.finish := Nat.le_trans hlate (h.next_le_finish hends)
    rw [h.line]
    -- The last attempt is the one that is waited for, or the one before that which is due.
    cases hmade : c.isMade with
    | true =>
      have hold := made_of_isMade hmade
      have htimely : ∀ i ≤ c.index, dueAt wire l s c.began i ≤ c.began + pingLimit :=
        fun i hi => h.timely i (by omega)
      have hnext : c.began + pingLimit ≤ dueAt wire l s c.began (c.index + 1) := by
        rw [h.dueAt_succ]
        rw [next_of_isMade hmade] at hlate
        exact Nat.le_trans hlate (Nat.le_add_right _ _)
      refine ⟨c.index, ?_, hold ▸ h.done, htimely⟩
      rw [hold]
      exact .givenUp (htimely _ (Nat.le_refl _)) hnext hlater
    | false =>
      have hold := made_of_not_isMade hmade
      rw [next_of_not_isMade hmade, h.due] at hlate
      -- The first attempt is made at once, so it was not that one that was still due.
      obtain ⟨n, hn⟩ : ∃ n, c.index = n + 1 := by
        refine Nat.exists_eq_succ_of_ne_zero fun hzero => ?_
        rw [hzero] at hlate
        exact absurd (show c.began + 10000 ≤ c.began from hlate) (by omega)
      rw [hn] at hlate hold
      have htimely : ∀ i ≤ n, dueAt wire l s c.began i ≤ c.began + pingLimit :=
        fun i hi => h.timely i (by omega)
      refine ⟨n, ?_, hold ▸ h.done, htimely⟩
      rw [hold]
      exact .givenUp (htimely n (Nat.le_refl _)) hlate hlater

end

/-! ## Coming to an end -/

/-- Whatever a call goes on by, its moment has come. -/
theorem Ends.of_now {done : List (Nat × Wire.Interaction κ)} (h : Ends wire now c done g) :
    c.next wire ≤ now ∨ c.limit ≤ now := by
  cases h with
  | last h =>
    cases h with
    | answered _ hnow => exact .inl hnow
    | givenUp hnow => exact .inr hnow
  | step h =>
    cases h with
    | make _ hnow => exact .inl hnow
    | again _ hnow => exact .inl hnow

/-- What a call whose attempt is due comes to if the rest of it is run in one go. -/
def inOneGo (wire : Wire σ κ) (fuel : Nat) (c : FirstCall σ) : Greeting :=
  let cut := c.line.policy.runUntil (wire.attempt .ping c.line) c.limit fuel c.index c.due c.ends
  .ofCall c.line c.limit (c.index + cut.starts.length) cut.ended

/-- A call whose time is over before its attempt is due. -/
theorem exists_ends_of_limit_le {fuel : Nat} (hmade : c.isMade = false) (hlate : c.limit ≤ c.due)
    (hnow : (c.inOneGo wire fuel).finish ≤ now) :
    ∃ done, Ends wire now c done (c.inOneGo wire fuel) := by
  have hgo : c.inOneGo wire fuel = .ofCall c.line c.limit c.made none := by
    rw [inOneGo, Retry.Policy.runUntil_of_limit_le hlate, made_of_not_isMade hmade]
    rfl
  rw [hgo] at hnow ⊢
  have hnext : c.next wire = c.due := next_of_not_isMade hmade
  exact ⟨[], .last (.givenUp hnow (hnext ▸ hlate))⟩

/-- A call that waits at least for a moment between two attempts goes on until it is over,
    and comes to what it comes to in one go. -/
theorem exists_ends (fuel : Nat) (hmade : c.isMade = false) (hfuel : c.limit ≤ c.due + fuel)
    (hinterval : 0 < c.line.policy.interval) (hnow : (c.inOneGo wire fuel).finish ≤ now) :
    ∃ done, Ends wire now c done (c.inOneGo wire fuel) := by
  induction fuel generalizing c with
  | zero => exact exists_ends_of_limit_le hmade hfuel hnow
  | succ fuel ih =>
    by_cases hlate : c.limit ≤ c.due
    · exact exists_ends_of_limit_le hmade hlate hnow
    have hdue : c.next wire = c.due := next_of_not_isMade hmade
    -- The attempt is made, and then the answer is waited for.
    let c₁ : FirstCall σ := { c with isMade := true }
    have hmake (h : c.due ≤ now) :
        c.Step wire now c₁ ((wire.trace .ping c.line c.ends).map (c.due, ·)) :=
      .make hmade (hdue ▸ h) (hdue ▸ Nat.le_of_not_le hlate)
    by_cases hover : c.limit ≤ c₁.next wire
    · -- The answer comes too late.
      have hgo : c.inOneGo wire (fuel + 1) = .ofCall c.line c.limit c₁.made none := by
        rw [inOneGo, Retry.Policy.runUntil_of_late hlate hover]
        rfl
      rw [hgo] at hnow ⊢
      have hlimit : c.limit ≤ now := hnow
      exact ⟨_, .step (hmake (Nat.le_trans (Nat.le_of_not_le hlate) hlimit))
        (.last (.givenUp hlimit hover))⟩
    have hmoment : c.due ≤ c₁.next wire := Nat.le_add_right _ _
    cases hverdict : c₁.verdict wire with
    | finish result =>
      have hgo : c.inOneGo wire (fuel + 1)
          = .ofCall c.line c.limit c₁.made (some (result, c₁.next wire)) := by
        rw [inOneGo, Retry.Policy.runUntil_of_finish hlate hover hverdict]
        rfl
      rw [hgo] at hnow ⊢
      have hended : c₁.next wire ≤ now := hnow
      exact ⟨_, .step (hmake (Nat.le_trans hmoment hended))
        (.last (.answered rfl hended (Nat.le_of_not_le hover) hverdict))⟩
    | again =>
      let c₂ : FirstCall σ := { c₁ with
        index := c.index + 1
        due := c₁.next wire + c.line.policy.interval
        isMade := false
        ends := (c.attempt wire).2 }
      have hgo : c.inOneGo wire (fuel + 1) = c₂.inOneGo wire fuel := by
        rw [inOneGo, Retry.Policy.runUntil_of_again hlate hover hverdict, inOneGo]
        dsimp only
        rw [List.length_cons, Nat.add_comm _ 1, ← Nat.add_assoc]
        rfl
      have hlonger : c.due + 1 ≤ c₂.due := Nat.add_le_add hmoment hinterval
      have hfuel' : c₂.limit ≤ c₂.due + fuel := by
        show c.limit ≤ c₂.due + fuel
        omega
      rw [hgo] at hnow ⊢
      obtain ⟨done, hends⟩ := ih (c := c₂) rfl hfuel' hinterval hnow
      have hended : c₁.next wire ≤ now := by
        rcases hends.of_now with h | h
        · exact Nat.le_trans (Nat.le_add_right _ _) h
        · exact Nat.le_trans (Nat.le_of_not_le hover) h
      exact ⟨_, .step (hmake (Nat.le_trans hmoment hended))
        (.step (.again rfl hended (Nat.le_of_not_le hover) hverdict) hends)⟩

/-- Whatever has happened so far, there is a moment from which on a call goes on until it
    is over. -/
theorem exists_moment (wire : Wire σ κ) (c : FirstCall σ) (hinterval : 0 < c.line.policy.interval) :
    ∃ moment, ∀ now, moment ≤ now → ∃ done g, Ends wire now c done g := by
  have hidle {c : FirstCall σ} (hmade : c.isMade = false)
      (hinterval : 0 < c.line.policy.interval) :
      ∃ moment, ∀ now, moment ≤ now → ∃ done g, Ends wire now c done g := by
    have hfuel : c.limit ≤ c.due + (c.limit - c.due) := by omega
    refine ⟨(c.inOneGo wire (c.limit - c.due)).finish, fun now hnow => ?_⟩
    obtain ⟨done, h⟩ := exists_ends _ hmade hfuel hinterval hnow
    exact ⟨done, _, h⟩
  cases hmade : c.isMade with
  | false => exact hidle hmade hinterval
  | true =>
    by_cases hlate : c.limit ≤ c.next wire
    · exact ⟨c.limit, fun now hnow => ⟨_, _, .last (.givenUp hnow hlate)⟩⟩
    have hlimit := Nat.le_of_not_le hlate
    cases hverdict : c.verdict wire with
    | finish result =>
      exact ⟨c.next wire, fun now hnow => ⟨_, _, .last (.answered hmade hnow hlimit hverdict)⟩⟩
    | again =>
      -- Once the answer is there, the next attempt is due some time.
      let later : FirstCall σ := { c with
        index := c.index + 1
        due := c.next wire + c.line.policy.interval
        isMade := false
        ends := (c.attempt wire).2 }
      obtain ⟨moment, hmoment⟩ := hidle (c := later) rfl hinterval
      refine ⟨max (c.next wire) moment, fun now hnow => ?_⟩
      obtain ⟨done, g, h⟩ := hmoment now (Nat.le_trans (Nat.le_max_right _ _) hnow)
      have hended := Nat.le_trans (Nat.le_max_left _ _) hnow
      exact ⟨_, g, .step (.again hmade hended hlimit hverdict) h⟩

/-- A call that is made to a plugin from now on comes to what greeting it comes to. -/
theorem exists_ends_greet {s : System} {h : Handle} (hinterval : 0 < h.call.policy.interval)
    (hnow : (greet s h).finish ≤ now) :
    ∃ done, Ends (Peer.wire s.network) now (start h.call s.now (s.peers, 0)) done (greet s h) := by
  have hgo : (start h.call s.now (s.peers, 0)).inOneGo (Peer.wire s.network) pingLimit
      = greet s h := by
    rw [inOneGo, greet]
    simp only [start, limit, Nat.zero_add]
  rw [← hgo] at hnow ⊢
  exact exists_ends pingLimit rfl (Nat.le_refl _) hinterval hnow

/-! ## First calls by HTTP -/

/-- The request that a first call makes. -/
def ping : Http.Request where
  method := "GET"
  path := "/ping"
  accept := some "application/json"
  contentType := none
  body := []

section
variable (wire : Wire σ κ) (k : Rest.Caller) (s : σ)

/-- The other ends after so many requests. -/
def pinged (count : Nat) : σ :=
  (fun s => (wire.request k ping s).2)^[count] s

/-- What comes of the request of an index, and how long it takes. -/
def reply (i : Nat) : Timed Http.Outcome :=
  (wire.request k ping (pinged wire k s i)).1

/-- When the requests are made: the first one at once, and each other one three seconds
    after the reply to the one before it. -/
def pingedAt (began : Nat) : Nat → Nat :=
  Retry.schedule 3000 (fun i => (reply wire k s i).elapsed) began

/-- A call ends with the reply of an index: it is the first one that settles it. -/
def Settles (began n : Nat) (run : Retry.Run Answer) : Prop :=
  Retry.Course 3000 none (fun i => Rest.Transient .ping (reply wire k s i).value)
    (fun i => Rest.Final .ping (reply wire k s i).value)
    (fun i => (reply wire k s i).elapsed) began n run

/-- What a first call comes to, and when, that makes its last request at an index: what the
    replies make of it, if that is known within ten seconds. -/
inductive Pinged (began n : Nat) : Except Error String → Nat → Prop
  | answered {run : Retry.Run Answer} (h : Settles wire k s began n run)
      (hlimit : run.finish ≤ began + 10000) :
      Pinged began n (replyText <$> run.result) run.finish
  | givenUp (hnext : began + 10000 ≤ pingedAt wire k s began (n + 1))
      (hlate : ∀ m run, Settles wire k s began m run → began + 10000 ≤ run.finish) :
      Pinged began n (.error (.callFailed (.other "no ping reply within 10s"))) (began + 10000)

end

section
variable {o : Rest.Options} {peer : String}

theorem before_rest (wire : Wire σ κ) (s : σ) (i : Nat) :
    wire.before .ping ⟨.rest o, peer, {}⟩ s i = pinged wire o.caller s i := by
  induction i with
  | zero => rfl
  | succ i ih =>
    rw [Wire.before_succ, ih, pinged, pinged, Function.iterate_succ_apply']
    rfl

theorem elapsed_rest (wire : Wire σ κ) (s : σ) :
    wire.elapsed .ping ⟨.rest o, peer, {}⟩ s = fun i => (reply wire o.caller s i).elapsed := by
  funext i
  rw [Wire.elapsed, before_rest, reply]
  rfl

theorem dueAt_rest (wire : Wire σ κ) (s : σ) (began : Nat) :
    dueAt wire ⟨.rest o, peer, {}⟩ s began = pingedAt wire o.caller s began := by
  rw [dueAt, elapsed_rest, pingedAt]

/-- A call by HTTP makes one request an attempt. -/
theorem doneBy_rest (wire : Wire σ κ) (s : σ) (began attempts : Nat) :
    doneBy wire ⟨.rest o, peer, {}⟩ s began attempts = (List.range attempts).map fun i =>
      (pingedAt wire o.caller s began i, .request o.caller ping) := by
  rw [doneBy, List.map_eq_flatMap, dueAt_rest]
  rfl

theorem ends_rest_iff {wire : Wire σ κ} {began n : Nat} {run : Retry.Run Answer} :
    wire.Ends ⟨.rest o, peer, {}⟩ .ping began s n run ↔ Settles wire o.caller s began n run := by
  have hclassified (i : Nat) : Retry.Classified
      (wire.attempt .ping ⟨.rest o, peer, {}⟩
        (wire.before .ping ⟨.rest o, peer, {}⟩ s i)).1.outcome
      (Rest.Transient .ping (reply wire o.caller s i).value)
      (Rest.Final .ping (reply wire o.caller s i).value) := by
    rw [before_rest]
    exact Rest.classified .ping _
  have hpolicy : (⟨.rest o, peer, {}⟩ : CallLine).policy = Retry.usualPolicy 3000 none := rfl
  rw [Wire.ends_iff_course hpolicy hclassified, elapsed_rest, Settles]

/-- Whatever comes of a call, it is known what was asked. -/
theorem asked_ofCall (l : CallLine) (limit attempts : Nat)
    (ended : Option (Except Error Answer × Nat)) :
    (Greeting.ofCall l limit attempts ended).asked = askedBy l attempts := by
  cases ended <;> rfl

theorem Greets.pinged {began n : Nat} (h : Greets wire ⟨.rest o, peer, {}⟩ s began n g) :
    Pinged wire o.caller s began n g.reply g.finish ∧
      g.asked = if o.isLocal then List.replicate (n + 1) (o.port, ping) else [] := by
  have hten : pingLimit = 10000 := rfl
  have hping : Rest.request .ping = ping := rfl
  cases h with
  | answered h hlimit =>
    rw [hten] at hlimit
    refine ⟨.answered (ends_rest_iff.1 h) hlimit, ?_⟩
    rw [asked_ofCall]
    simp only [askedBy, hping]
  | givenUp hmade hnext hlate =>
    rw [dueAt_rest, hten] at hnext
    rw [hten] at hlate ⊢
    refine ⟨.givenUp hnext fun m run hrun => hlate m run (ends_rest_iff.2 hrun), ?_⟩
    rw [asked_ofCall]
    simp only [askedBy, hping]

end

end FirstCall
end PluginHost
