/-
  PluginHost.Proofs.Wire.Retrying

  What a call does at the other ends until it ends.  Every attempt does the same anew:
  one request, or one connection and, if there is one, one call over it.  Which outcome
  ends the call depends on its error alone, and so on what was answered.
-/
import PluginHost.Call.Wire
import PluginHost.Proofs.Retry
import PluginHost.Proofs.Wire.Replies

namespace PluginHost

namespace Wire

variable {σ κ : Type}

/-! ## What is done at the other ends -/

/-- Something that is done at the other ends. -/
inductive Interaction (κ : Type) where
  | request (k : Rest.Caller) (r : Http.Request)
  | dial (connector : String) (port : UInt16)
  | call (connection : κ) (c : Call)

/-- The other ends, with all that was done there. -/
def recorded (w : Wire σ κ) : Wire (σ × List (Interaction κ)) κ where
  request k r s :=
    let (outcome, s') := w.request k r s.1
    (outcome, s', s.2 ++ [.request k r])
  dial connector port s :=
    let (connection, s') := w.dial connector port s.1
    (connection, s', s.2 ++ [.dial connector port])
  call connection c s :=
    let (reply, s') := w.call connection c s.1
    (reply, s', s.2 ++ [.call connection c])

/-- What an attempt over a connection does: it has a port dialled, and calls over the
    connection that it has got by that. -/
def dialled (w : Wire σ κ) (connector : String) (port : UInt16) (c : Call) (s : σ) :
    List (Interaction κ) :=
  match (w.dial connector port s).1.value with
  | .ok connection => [.dial connector port, .call connection c]
  | .error _ => [.dial connector port]

/-- What comes of such an attempt: its connector refuses the connection, the call over the
    connection breaks off, or there is a reply to it. -/
inductive Brings (w : Wire σ κ) (connector : String) (port : UInt16) (c : Call) (s : σ) :
    Rpc.Outcome → Prop
  | refused {detail : String} (h : (w.dial connector port s).1.value = .error detail) :
      Brings w connector port c s (.refused detail)
  | broken {connection : κ} {detail : String}
      (h : (w.dial connector port s).1.value = .ok connection)
      (hcall : (w.call connection c (w.dial connector port s).2).1.value = .error detail) :
      Brings w connector port c s (.broken detail)
  | reply {connection : κ} {status : String} {response : Answer}
      (h : (w.dial connector port s).1.value = .ok connection)
      (hcall : (w.call connection c (w.dial connector port s).2).1.value
        = .ok (status, response)) :
      Brings w connector port c s (.reply status response)

/-- What an attempt does. -/
def trace (w : Wire σ κ) (c : Call) (l : CallLine) (s : σ) : List (Interaction κ) :=
  match l.line with
  | .rest o => [.request o.caller (Rest.request c)]
  | .rpc port connector => w.dialled (connector.getD l.peer) port c s

variable (w : Wire σ κ) (c : Call) (l : CallLine) (s : σ) (log : List (Interaction κ))

theorem dial_recorded (connector : String) (port : UInt16) :
    w.recorded.dial connector port (s, log) = ((w.dial connector port s).1,
      (w.dial connector port s).2, log ++ [.dial connector port]) :=
  rfl

theorem call_recorded (connection : κ) : w.recorded.call connection c (s, log) =
    ((w.call connection c s).1, (w.call connection c s).2, log ++ [.call connection c]) :=
  rfl

theorem converse_recorded (connector : String) (port : UInt16) :
    w.recorded.converse connector port c (s, log) = ((w.converse connector port c s).1,
      (w.converse connector port c s).2, log ++ w.dialled connector port c s) := by
  rw [converse, converse, dialled, dial_recorded]
  -- The call is made over a connection, so only if dialling has given one.
  rcases w.dial connector port s with ⟨⟨waited, detail | connection⟩, s₁⟩
  · rfl
  · simp only [call_recorded]
    rcases w.call connection c s₁ with ⟨⟨waited', detail | ⟨status, response⟩⟩, s₂⟩ <;>
      simp only [List.append_assoc, List.cons_append, List.nil_append]

/-- What comes of it, read off what the connector and the connection answer. -/
theorem value_converse (connector : String) (port : UInt16) :
    (w.converse connector port c s).1.value =
      match (w.dial connector port s).1.value with
      | .error detail => .refused detail
      | .ok connection =>
        match (w.call connection c (w.dial connector port s).2).1.value with
        | .error detail => .broken detail
        | .ok (status, response) => .reply status response := by
  rw [converse]
  rcases w.dial connector port s with ⟨⟨waited, detail | connection⟩, s₁⟩
  · rfl
  · dsimp only
    rcases w.call connection c s₁ with ⟨⟨waited', detail | ⟨status, response⟩⟩, s₂⟩ <;> rfl

variable {w c s} in
theorem brings_iff {connector : String} {port : UInt16} {outcome : Rpc.Outcome} :
    w.Brings connector port c s outcome ↔ (w.converse connector port c s).1.value = outcome := by
  rw [value_converse]
  constructor
  · intro h
    cases h with
    | refused h => rw [h]
    | broken h hcall => simp only [h, hcall]
    | reply h hcall => simp only [h, hcall]
  · rintro rfl
    cases hdial : (w.dial connector port s).1.value with
    | error detail => exact .refused hdial
    | ok connection =>
      dsimp only
      cases hcall : (w.call connection c (w.dial connector port s).2).1.value with
      | error detail => exact .broken hdial hcall
      | ok reply => exact .reply hdial hcall

theorem attempt_rest (o : Rest.Options) (peer : String) (policy : Retry.Policy) :
    (w.attempt c ⟨.rest o, peer, policy⟩ s).1.outcome
      = Rest.judge c (w.request o.caller (Rest.request c) s).1.value :=
  rfl

variable {w c l s} in
theorem elapsed_attempt_rest {o : Rest.Options} (hl : l.line = .rest o) :
    (w.attempt c l s).1.elapsed = (w.request o.caller (Rest.request c) s).1.elapsed := by
  rw [attempt, hl]

variable {w c l s} in
theorem trace_rest {o : Rest.Options} (hl : l.line = .rest o) :
    w.trace c l s = [.request o.caller (Rest.request c)] := by
  rw [trace, hl]

variable {w c l s} in
theorem trace_rpc {port : UInt16} {connector : Option String}
    (hl : l.line = .rpc port connector) :
    w.trace c l s = w.dialled (connector.getD l.peer) port c s := by
  rw [trace, hl]

theorem attempt_recorded : w.recorded.attempt c l (s, log) =
    ((w.attempt c l s).1, (w.attempt c l s).2, log ++ w.trace c l s) := by
  obtain ⟨line, peer, policy⟩ := l
  cases line with
  | rest o => rfl
  | rpc port connector =>
    simp only [attempt, converse_recorded]
    rfl

/-! ## One attempt after another -/

/-- What the attempt of an index finds. -/
def before (n : Nat) : σ :=
  Retry.found (w.attempt c l) s n

@[simp] theorem before_zero : w.before c l s 0 = s :=
  rfl

theorem before_succ (n : Nat) :
    w.before c l s (n + 1) = (w.attempt c l (w.before c l s n)).2 :=
  Retry.found_succ (w.attempt c l) s n

/-- How long the attempt of an index takes. -/
def elapsed (n : Nat) : Nat :=
  (w.attempt c l (w.before c l s n)).1.elapsed

theorem before_recorded (n : Nat) :
    w.recorded.before c l (s, log) n =
      (w.before c l s n,
        log ++ (List.range n).flatMap fun i => w.trace c l (w.before c l s i)) := by
  induction n with
  | zero => rw [List.range_zero, List.flatMap_nil, List.append_nil, before_zero, before_zero]
  | succ n ih =>
    -- The attempt of index n adds what it does to what was done before it.
    rw [before_succ, ih, attempt_recorded, List.range_succ, List.flatMap_append,
      List.append_assoc, List.flatMap_singleton, before_succ]

theorem elapsed_recorded : w.recorded.elapsed c l (s, log) = w.elapsed c l s := by
  funext n
  rw [elapsed, before_recorded, attempt_recorded, elapsed]

/-- A call that ends with the attempt of an index, its first attempt being due at
    `now`. -/
structure Ends (l : CallLine) (w : Wire σ κ) (c : Call) (now : Nat) (s : σ) (n : Nat)
    (run : Retry.Run Answer) : Prop where
  again : ∀ i < n, l.policy.judge (Retry.countAt i)
    (w.attempt c l (w.before c l s i)).1.outcome = .again
  finish : l.policy.judge (Retry.countAt n) (w.attempt c l (w.before c l s n)).1.outcome
    = .finish run.result
  starts : run.starts
    = (List.range (n + 1)).map (Retry.schedule l.policy.interval (w.elapsed c l s) now)
  finished : run.finish
    = Retry.schedule l.policy.interval (w.elapsed c l s) now n + w.elapsed c l s n

theorem endsAt_attempt_iff {now n : Nat} {s' : σ} {run : Retry.Run Answer} :
    Retry.EndsAt l.policy (w.attempt c l) 0 now s n run s' ↔
      Ends l w c now s n run ∧ s' = w.before c l s (n + 1) := by
  have hdue : Retry.due l.policy.interval (w.attempt c l) now s
      = Retry.schedule l.policy.interval (w.elapsed c l s) now :=
    funext (Retry.due_eq_schedule l.policy.interval (w.attempt c l) now s)
  constructor
  · rintro ⟨hagain, hfinish, hstarts, hfinished, hleft⟩
    simp only [Nat.zero_add] at hagain hfinish
    rw [hdue] at hstarts hfinished
    exact ⟨⟨hagain, hfinish, hstarts, hfinished⟩, hleft⟩
  · rintro ⟨⟨hagain, hfinish, hstarts, hfinished⟩, hleft⟩
    rw [← hdue] at hstarts hfinished
    refine ⟨fun i hi => ?_, ?_, hstarts, hfinished, hleft⟩
    · rw [Nat.zero_add]
      exact hagain i hi
    · rw [Nat.zero_add]
      exact hfinish

/-- A call ends with the first attempt after which its policy does not ask for another. -/
theorem runOver_eq_some_iff {now fuel : Nat} {s' : σ} {run : Retry.Run Answer} :
    l.runOver w c now fuel s = some (run, s') ↔
      ∃ n < fuel, Ends l w c now s n run ∧ s' = w.before c l s (n + 1) := by
  rw [CallLine.runOver, Retry.runFrom_eq_some_iff]
  exact exists_congr fun n => and_congr_right fun _ => endsAt_attempt_iff w c l s

theorem ends_recorded_iff {now n : Nat} {run : Retry.Run Answer} :
    Ends l w.recorded c now (s, log) n run ↔ Ends l w c now s n run := by
  have hsame : ∀ i, (w.recorded.attempt c l (w.recorded.before c l (s, log) i)).1
      = (w.attempt c l (w.before c l s i)).1 := fun i => by
    rw [before_recorded, attempt_recorded]
  constructor
  · rintro ⟨hagain, hfinish, hstarts, hfinished⟩
    rw [elapsed_recorded] at hstarts hfinished
    simp only [hsame] at hagain hfinish
    exact ⟨hagain, hfinish, hstarts, hfinished⟩
  · rintro ⟨hagain, hfinish, hstarts, hfinished⟩
    rw [← elapsed_recorded w c l s log] at hstarts hfinished
    simp only [← hsame] at hagain hfinish
    exact ⟨hagain, hfinish, hstarts, hfinished⟩

/-- To record what is done changes nothing. -/
theorem runOver_recorded {now fuel : Nat} {s' : σ} {run : Retry.Run Answer}
    {log : List (Interaction κ)} :
    l.runOver w.recorded c now fuel (s, []) = some (run, s', log) ↔
      ∃ n < fuel, Ends l w c now s n run ∧ s' = w.before c l s (n + 1) ∧
        log = (List.range (n + 1)).flatMap fun i => w.trace c l (w.before c l s i) := by
  rw [runOver_eq_some_iff]
  simp only [ends_recorded_iff, before_recorded, List.nil_append, Prod.mk.injEq]

theorem ends_iff_course {w : Wire σ κ} {c : Call} {l : CallLine} {s : σ} {interval : Nat}
    {ceiling : Option UInt32} (hpolicy : l.policy = Retry.usualPolicy interval ceiling)
    {again : Nat → Error → Prop} {ends : Nat → Except Error Answer → Prop}
    (h : ∀ i, Retry.Classified (w.attempt c l (w.before c l s i)).1.outcome (again i) (ends i))
    {now n : Nat} {run : Retry.Run Answer} :
    Ends l w c now s n run ↔
      Retry.Course interval ceiling again ends (w.elapsed c l s) now n run := by
  have hinterval : l.policy.interval = interval := by rw [hpolicy, Retry.usualPolicy]
  have hagain := fun i => (h i).judge_eq_again_iff interval ceiling i
  have hfinish : _ = Retry.Verdict.finish run.result ↔ _ :=
    (h n).judge_eq_finish_iff interval ceiling n
  -- The sides differ in how they count the last attempt.
  constructor
  · rintro ⟨hearlier, hlast, hstarts, hfinished⟩
    rw [hinterval] at hstarts hfinished
    rw [hpolicy] at hearlier hlast
    have hearlier' := fun i hi => (hagain i).1 (hearlier i hi)
    refine ⟨hearlier', (hfinish.1 hlast).imp_right ?_, hstarts, hfinished⟩
    rintro ⟨e, he, hreached, hresult⟩
    rw [Retry.countAt_eq (fun i hi => (hearlier' i hi).2) hreached] at hresult
    exact ⟨e, he, hreached, hresult⟩
  · rintro ⟨hearlier, hlast, hstarts, hfinished⟩
    constructor
    · intro i hi
      rw [hpolicy]
      exact (hagain i).2 (hearlier i hi)
    · rw [hpolicy]
      refine hfinish.2 (hlast.imp_right ?_)
      rintro ⟨e, he, hreached, hresult⟩
      rw [← Retry.countAt_eq (fun i hi => (hearlier i hi).2) hreached] at hresult
      exact ⟨e, he, hreached, hresult⟩
    · rw [hinterval]
      exact hstarts
    · rw [hinterval]
      exact hfinished

end Wire

/-! ## Outcomes -/

theorem Rest.classified (call : Call) (outcome : Http.Outcome) :
    Retry.Classified (judge call outcome) (Transient call outcome) (Final call outcome) where
  covered := final_or_transient call outcome
  of_ends := by
    intro result h
    refine ⟨h.judge_eq, ?_⟩
    rintro e rfl
    exact h.isTerminal
  of_again := fun _ h => ⟨h.judge_eq, h.not_isTerminal⟩

theorem Rpc.classified (port : UInt16) (outcome : Outcome) :
    Retry.Classified (judge port outcome) (Transient port outcome) fun result =>
      ∃ response, outcome = .reply "success" response ∧ result = .ok response where
  covered := (success_or_transient port outcome).imp_left fun ⟨response, h⟩ =>
    ⟨_, response, h, rfl⟩
  of_ends := by
    rintro result ⟨response, rfl, rfl⟩
    exact ⟨judge_success port response, nofun⟩
  of_again := fun _ h => ⟨h.judge_eq, h.not_isTerminal⟩

/-- The request that carries a call.  The body of a command is a JSON text, which is read
    as the command and the digits of its payload. -/
inductive Rest.Carries : Call → Http.Request → Prop
  | ping : Carries .ping
      { method := "GET", path := "/ping", accept := some "application/json",
        contentType := none, body := [] }
  | exec {command : String} {payload body : Bytes}
      (hbody : body = Utf8.encode (ExecRequest.render ⟨command, Hex.encode payload⟩))
      (hread : ExecRequest.parse body = .ok ⟨command, Hex.encode payload⟩) :
      Carries (.exec command payload)
        { method := "POST", path := "/exec", accept := some "*/*",
          contentType := some "application/json", body }

theorem Rest.carries_request (call : Call) : Carries call (request call) := by
  cases call with
  | ping => exact .ping
  | exec command payload => exact .exec rfl (ExecRequest.parse_render _)

namespace Wire

/-- A call makes one request an attempt, always the one that carries it, to the same
    address and with the same limit of time; or it has one connection made an attempt,
    always by the same connector to the same port, and over each connection that is made
    it makes just this call.  By HTTP it is over with the first outcome that is not
    transient, over connections with the first reply of success, and in any case when the
    ceiling is reached; no earlier and no later, and with this result. -/
theorem calls_retried {σ κ : Type} (w : Wire σ κ) (call : Call) (peer : String) (interval : Nat)
    (ceiling : Option UInt32) (now fuel : Nat) (s s' : σ) (run : Retry.Run Answer)
    (log : List (Interaction κ)) :
    (∀ o : Rest.Options,
      let l : CallLine := ⟨.rest o, peer, Retry.usualPolicy interval ceiling⟩
      let k : Rest.Caller := ⟨Rest.origin o.address ++ ":" ++ toString o.port.toNat,
        if o.timeout = 0 then 5000 else o.timeout⟩
      ∃ r, Rest.Carries call r ∧
        (l.runOver w.recorded call now fuel (s, []) = some (run, s', log) ↔
          ∃ n < fuel,
            Retry.Course interval ceiling
              (fun i => Rest.Transient call (w.request k r (w.before call l s i)).1.value)
              (fun i => Rest.Final call (w.request k r (w.before call l s i)).1.value)
              (w.elapsed call l s) now n run ∧
            s' = w.before call l s (n + 1) ∧
            log = List.replicate (n + 1) (.request k r))) ∧
    (∀ (port : UInt16) (connector : Option String),
      let l : CallLine := ⟨.rpc port connector, peer, Retry.usualPolicy interval ceiling⟩
      let dialler := connector.getD peer
      l.runOver w.recorded call now fuel (s, []) = some (run, s', log) ↔
        ∃ n < fuel,
          Retry.Course interval ceiling
            (fun i e => ∃ outcome, w.Brings dialler port call (w.before call l s i) outcome ∧
              Rpc.Transient port outcome e)
            (fun i result => ∃ response,
              w.Brings dialler port call (w.before call l s i) (.reply "success" response) ∧
                result = .ok response)
            (w.elapsed call l s) now n run ∧
          s' = w.before call l s (n + 1) ∧
          log = (List.range (n + 1)).flatMap fun i =>
            w.dialled dialler port call (w.before call l s i)) := by
  constructor
  · intro o l k
    refine ⟨Rest.request call, Rest.carries_request call, ?_⟩
    have hclassified : ∀ i, Retry.Classified (w.attempt call l (w.before call l s i)).1.outcome
        _ _ := fun i => Rest.classified call (w.request k (Rest.request call) _).1.value
    -- The request does not depend on what the other ends are like by then.
    have hlog : ∀ n, ((List.range n).flatMap fun i => w.trace call l (w.before call l s i))
        = List.replicate n (.request k (Rest.request call)) := by
      intro n
      simp only [trace_rest (l := l) rfl]
      rw [← List.map_eq_flatMap, List.map_const', List.length_range]
      rfl
    have hpolicy : l.policy = Retry.usualPolicy interval ceiling := rfl
    simp only [runOver_recorded, ends_iff_course hpolicy hclassified, hlog]
  · intro port connector l dialler
    have hclassified : ∀ i, Retry.Classified (w.attempt call l (w.before call l s i)).1.outcome
        _ _ := fun i => Rpc.classified port (w.converse dialler port call _).1.value
    have htrace : ∀ s, w.trace call l s = w.dialled dialler port call s := fun _ => trace_rpc rfl
    have hpolicy : l.policy = Retry.usualPolicy interval ceiling := rfl
    simp only [runOver_recorded, ends_iff_course hpolicy hclassified, htrace, brings_iff,
      exists_eq_left']

end Wire

end PluginHost
