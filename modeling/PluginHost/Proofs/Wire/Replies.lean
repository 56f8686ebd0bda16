/-
  PluginHost.Proofs.Wire.Replies

  What an answer comes to, case by case and in the order in which it is looked at: its
  body before its status, the status before the envelope, the envelope before the
  response in it.  Some outcomes end a call, after the others it is made again.
-/
import PluginHost.Call.Rest
import PluginHost.Call.Retry
import PluginHost.Call.Rpc
import PluginHost.Proofs.Wire.Messages

namespace PluginHost

namespace Rest

/-! ## Responses -/

/-- What a response says in answer to a call. -/
inductive Answers : Call → Json.Value → Answer → Prop where
  | text (s : String) : Answers .ping (.text s) (.text s)
  | written {v : Json.Value} (h : ∀ s, v ≠ .text s) : Answers .ping v (.text v.render)
  | bytes {command s : String} {payload bs : Bytes} (h : Hex.decode s = .ok bs) :
    Answers (.exec command payload) (.text s) (.bytes bs)

/-- Why a response to a command is no answer: it is no text of pairs of digits. -/
inductive Garbles : Call → Json.Value → Error → Prop where
  | digits {command s : String} {payload : Bytes} {fault : Hex.Fault} (h : ¬ Hex.IsText s)
    (hfault : Hex.decode s = .error fault) :
    Garbles (.exec command payload) (.text s) (.undecodable fault.message)
  | form {command : String} {payload : Bytes} {v : Json.Value} (h : ∀ s, v ≠ .text s) :
    Garbles (.exec command payload) v (.undecodable ("expected hex string, got " ++ v.render))

theorem answer_ping_of_ne {v : Json.Value} (h : ∀ s, v ≠ .text s) :
    answer .ping v = .ok (.text v.render) := by
  cases v
  case text s => exact absurd rfl (h s)
  all_goals rfl

theorem answer_exec_of_ne {v : Json.Value} (h : ∀ s, v ≠ .text s) (command : String)
    (payload : Bytes) :
    answer (.exec command payload) v
      = .error (.undecodable ("expected hex string, got " ++ v.render)) := by
  cases v
  case text s => exact absurd rfl (h s)
  all_goals rfl

theorem Answers.answer_eq {call : Call} {v : Json.Value} {a : Answer} (h : Answers call v a) :
    answer call v = .ok a := by
  cases h with
  | text s => rfl
  | written h => exact answer_ping_of_ne h
  | bytes h => simp only [answer, h]

theorem Garbles.answer_eq {call : Call} {v : Json.Value} {e : Error} (h : Garbles call v e) :
    answer call v = .error e := by
  cases h with
  | digits _ hfault => simp only [answer, hfault]
  | form h => exact answer_exec_of_ne h _ _

/-- A response is an answer, or there is a reason why it is none. -/
theorem answers_or_garbles (call : Call) (v : Json.Value) :
    (∃ a, Answers call v a) ∨ ∃ e, Garbles call v e := by
  by_cases htext : ∃ s, v = .text s
  · obtain ⟨s, rfl⟩ := htext
    cases call with
    | ping => exact .inl ⟨_, .text s⟩
    | exec command payload =>
      -- Decoding fails for no other texts than those without pairs of digits.
      cases hdecode : Hex.decode s with
      | ok bs => exact .inl ⟨_, .bytes hdecode⟩
      | error fault =>
        refine .inr ⟨_, .digits (fun hs => ?_) hdecode⟩
        obtain ⟨bs, hbs⟩ := Hex.exists_decode_iff.2 hs
        rw [hbs] at hdecode
        cases hdecode
  · have hne : ∀ s, v ≠ .text s := fun s hs => htext ⟨s, hs⟩
    cases call with
    | ping => exact .inl ⟨_, .written hne⟩
    | exec command payload => exact .inr ⟨_, .form hne⟩

theorem exists_garbles_iff {call : Call} {v : Json.Value} :
    (∃ e, Garbles call v e) ↔
      ∃ command payload, call = .exec command payload ∧ ∀ s, v = .text s → ¬ Hex.IsText s := by
  constructor
  · rintro ⟨e, h⟩
    cases h with
    | digits h _ => exact ⟨_, _, rfl, fun s hs => by cases hs; exact h⟩
    | form h => exact ⟨_, _, rfl, fun s hs => absurd hs (h s)⟩
  · rintro ⟨command, payload, rfl, hno⟩
    obtain ⟨a, ha⟩ | he := answers_or_garbles (.exec command payload) v
    · cases ha with
      | bytes hdecode => exact absurd (Hex.exists_decode_iff.1 ⟨_, hdecode⟩) (hno _ rfl)
    · exact he

/-! ## Answers by HTTP -/

theorem judge_of_unreadable (call : Call) (status : Nat) {body : Option Bytes}
    (h : ∀ bs ∈ body, bodyLimit < bs.length) :
    judge call (.answered status body) = .error (.callFailed .unreadable) := by
  cases body with
  | none => rfl
  | some bs => simp only [judge, if_pos (h bs rfl)]

/-- An answer with another status than expected is refused, whatever it holds. -/
theorem judge_of_status_ne {call : Call} {status : Nat} {body : Bytes}
    (hsize : body.length ≤ bodyLimit) (h : status ≠ expectedStatus call) :
    judge call (.answered status (some body)) = .error (refused status call) := by
  simp only [judge, if_neg (Nat.not_lt.2 hsize), if_pos h]

theorem judge_of_malformed {call : Call} {body : Bytes} {problem : Problem}
    (hsize : body.length ≤ bodyLimit)
    (h : Envelope.parse (Utf8.decodeLossy body) = .error problem) :
    judge call (.answered (expectedStatus call) (some body))
      = .error (.callFailed (.malformed problem)) := by
  simp only [judge, if_neg (Nat.not_lt.2 hsize), ne_eq, not_true_eq_false, if_false, response, h]
  rfl

/-- What comes of an answer with the status and the form that are expected. -/
theorem judge_of_envelope {call : Call} {body : Bytes} {e : Envelope}
    (hsize : body.length ≤ bodyLimit) (h : Envelope.parse (Utf8.decodeLossy body) = .ok e) :
    judge call (.answered (expectedStatus call) (some body)) =
      match e.data with
      | some v => answer call v
      | none => .error (.callFailed (.noData e.status)) := by
  simp only [judge, if_neg (Nat.not_lt.2 hsize), ne_eq, not_true_eq_false, if_false, response, h]
  cases e.data <;> rfl

/-- An answer that gives bytes is taken for these bytes. -/
theorem judge_bytesReply (command : String) (payload bs : Bytes)
    (hsize : (bytesReply bs).length ≤ bodyLimit) :
    judge (.exec command payload) (.answered 202 (some (bytesReply bs))) = .ok (.bytes bs) := by
  have hparse : Envelope.parse (Utf8.decodeLossy (bytesReply bs))
      = .ok (.success (.text (Hex.encode bs))) := by
    rw [bytesReply, Utf8.decodeLossy_encode]
    exact Envelope.parse_render_text _ _ _
  have hjudge : judge (.exec command payload) (.answered 202 (some (bytesReply bs))) = _ :=
    judge_of_envelope hsize hparse
  simpa [expectedStatus, Envelope.success, answer, Hex.decode_encode] using hjudge

/-- The status that the answer to a call has to have. -/
inductive Expects : Call → Nat → Prop
  | ping : Expects .ping 200
  | exec (command : String) (payload : Bytes) : Expects (.exec command payload) 202

/-- The error of an answer with another status. -/
inductive Refuses : Call → Nat → Error → Prop
  | ping {status : Nat} (h : status ≠ 200) : Refuses .ping status (.pingRefused status)
  | exec {status : Nat} (command : String) (payload : Bytes) (h : status ≠ 202) :
    Refuses (.exec command payload) status (.execRefused status)

theorem expects_iff {call : Call} {status : Nat} :
    Expects call status ↔ status = expectedStatus call := by
  constructor
  · intro h
    cases h <;> rfl
  · rintro rfl
    cases call with
    | ping => exact .ping
    | exec command payload => exact .exec command payload

theorem refuses_iff {call : Call} {status : Nat} {e : Error} :
    Refuses call status e ↔ status ≠ expectedStatus call ∧ e = refused status call := by
  constructor
  · intro h
    cases h with
    | ping h => exact ⟨h, rfl⟩
    | exec command payload h => exact ⟨h, rfl⟩
  · rintro ⟨h, rfl⟩
    cases call with
    | ping => exact .ping h
    | exec command payload => exact .exec command payload h

/-- The outcomes that end a call, with its result. -/
inductive Final (call : Call) : Http.Outcome → Except Error Answer → Prop where
  | unreadable {status : Nat} {body : Option Bytes} (h : ∀ bs ∈ body, bodyLimit < bs.length) :
    Final call (.answered status body) (.error (.callFailed .unreadable))
  | refused {status : Nat} {body : Bytes} {e : Error} (hsize : body.length ≤ bodyLimit)
    (h : Refuses call status e) : Final call (.answered status (some body)) (.error e)
  | malformed {status : Nat} {body : Bytes} {problem : Problem} (hsize : body.length ≤ bodyLimit)
    (hstatus : Expects call status) (h : Envelope.parse (Utf8.decodeLossy body) = .error problem) :
    Final call (.answered status (some body)) (.error (.callFailed (.malformed problem)))
  | noData {status : Nat} {body : Bytes} {e : Envelope} (hsize : body.length ≤ bodyLimit)
    (hstatus : Expects call status) (h : Envelope.parse (Utf8.decodeLossy body) = .ok e)
    (hdata : e.data = none) :
    Final call (.answered status (some body)) (.error (.callFailed (.noData e.status)))
  | answered {status : Nat} {body : Bytes} {e : Envelope} {v : Json.Value} {a : Answer}
    (hsize : body.length ≤ bodyLimit) (hstatus : Expects call status)
    (h : Envelope.parse (Utf8.decodeLossy body) = .ok e) (hdata : e.data = some v)
    (ha : Answers call v a) : Final call (.answered status (some body)) (.ok a)

/-- The outcomes after which a call is made again, with their errors. -/
inductive Transient (call : Call) : Http.Outcome → Error → Prop where
  | lost (detail : String) : Transient call (.lost detail) (.requestFailed detail)
  | garbled {status : Nat} {body : Bytes} {e : Envelope} {v : Json.Value} {error : Error}
    (hsize : body.length ≤ bodyLimit) (hstatus : Expects call status)
    (h : Envelope.parse (Utf8.decodeLossy body) = .ok e) (hdata : e.data = some v)
    (hv : Garbles call v error) : Transient call (.answered status (some body)) error

theorem Final.judge_eq {call : Call} {outcome : Http.Outcome} {result : Except Error Answer}
    (h : Final call outcome result) : judge call outcome = result := by
  cases h with
  | unreadable h => exact judge_of_unreadable call _ h
  | refused hsize h =>
    obtain ⟨hstatus, rfl⟩ := refuses_iff.1 h
    exact judge_of_status_ne hsize hstatus
  | malformed hsize hstatus h =>
    rw [expects_iff.1 hstatus]
    exact judge_of_malformed hsize h
  | noData hsize hstatus h hdata => rw [expects_iff.1 hstatus, judge_of_envelope hsize h, hdata]
  | answered hsize hstatus h hdata ha =>
    rw [expects_iff.1 hstatus, judge_of_envelope hsize h, hdata]
    exact ha.answer_eq

theorem Transient.judge_eq {call : Call} {outcome : Http.Outcome} {e : Error}
    (h : Transient call outcome e) : judge call outcome = .error e := by
  cases h with
  | lost detail => rfl
  | garbled hsize hstatus h hdata hv =>
    rw [expects_iff.1 hstatus, judge_of_envelope hsize h, hdata]
    exact hv.answer_eq

/-- There is no third kind of outcomes. -/
theorem final_or_transient (call : Call) (outcome : Http.Outcome) :
    (∃ result, Final call outcome result) ∨ ∃ e, Transient call outcome e := by
  -- The cases in the order in which an answer is looked at.
  cases outcome with
  | lost detail => exact .inr ⟨_, .lost detail⟩
  | answered status body =>
    by_cases hread : ∀ bs ∈ body, bodyLimit < bs.length
    · exact .inl ⟨_, .unreadable hread⟩
    obtain ⟨bs, rfl, hlong⟩ : ∃ bs, body = some bs ∧ ¬ bodyLimit < bs.length := by
      simpa [Option.mem_def] using hread
    have hsize := Nat.le_of_not_lt hlong
    by_cases hstatus : status = expectedStatus call
    · have hstatus := expects_iff.2 hstatus
      cases hparse : Envelope.parse (Utf8.decodeLossy bs) with
      | error problem => exact .inl ⟨_, .malformed hsize hstatus hparse⟩
      | ok e =>
        cases hdata : e.data with
        | none => exact .inl ⟨_, .noData hsize hstatus hparse hdata⟩
        | some v =>
          exact (answers_or_garbles call v).imp
            (fun ⟨a, ha⟩ => ⟨_, .answered hsize hstatus hparse hdata ha⟩)
            (fun ⟨error, hv⟩ => ⟨error, .garbled hsize hstatus hparse hdata hv⟩)
    · exact .inl ⟨_, .refused hsize (refuses_iff.2 ⟨hstatus, rfl⟩)⟩

/-- Errors that end a call are of a terminal kind. -/
theorem Final.isTerminal {call : Call} {outcome : Http.Outcome} {e : Error}
    (h : Final call outcome (.error e)) : ({} : Retry.Policy).isTerminal e.kind = true := by
  cases h with
  | unreadable => rfl
  | refused _ h => cases h <;> rfl
  | malformed => rfl
  | noData => rfl

theorem Transient.not_isTerminal {call : Call} {outcome : Http.Outcome} {e : Error}
    (h : Transient call outcome e) : ({} : Retry.Policy).isTerminal e.kind = false := by
  cases h with
  | lost => rfl
  | garbled _ _ _ _ hv => cases hv <;> rfl

end Rest

namespace Rpc

/-! ## Replies over a connection -/

/-- The replies after which a call is made again, with their errors. -/
inductive Transient (port : UInt16) : Outcome → Error → Prop where
  | refused (detail : String) :
    Transient port (.refused detail)
      (.connectFailed ("port " ++ toString port.toNat ++ ": " ++ detail))
  | broken (detail : String) : Transient port (.broken detail) (.replyFailed detail)
  | failed {status : String} (response : Answer) (h : status ≠ "success") :
    Transient port (.reply status response) (.replyFailed ("status " ++ status))

theorem judge_success (port : UInt16) (response : Answer) :
    judge port (.reply "success" response) = .ok response := by
  rw [judge, Envelope.successStatus, if_pos rfl]

theorem Transient.judge_eq {port : UInt16} {outcome : Outcome} {e : Error}
    (h : Transient port outcome e) : judge port outcome = .error e := by
  cases h with
  | refused => rfl
  | broken => rfl
  | failed response h => exact if_neg h

theorem Transient.not_isTerminal {port : UInt16} {outcome : Outcome} {e : Error}
    (h : Transient port outcome e) : ({} : Retry.Policy).isTerminal e.kind = false := by
  cases h <;> rfl

/-- Only a reply with the status of success ends a call. -/
theorem success_or_transient (port : UInt16) (outcome : Outcome) :
    (∃ response, outcome = .reply "success" response) ∨ ∃ e, Transient port outcome e := by
  cases outcome with
  | refused detail => exact .inr ⟨_, .refused detail⟩
  | broken detail => exact .inr ⟨_, .broken detail⟩
  | reply status response =>
    by_cases h : status = "success"
    · exact .inl ⟨response, h ▸ rfl⟩
    · exact .inr ⟨_, .failed response h⟩

end Rpc

/-! ## Replies that report a failure -/

namespace Rest

/-- An answer with the expected status is an error exactly if it cannot be read to its
    end or holds no answer.  The status in its envelope does not matter. -/
theorem exists_judge_error_iff {call : Call} {body : Bytes} {e : Envelope}
    (h : Envelope.parse (Utf8.decodeLossy body) = .ok e) :
    (∃ error, judge call (.answered (expectedStatus call) (some body)) = .error error) ↔
      bodyLimit < body.length ∨ e.data = none ∨
        ∃ v, e.data = some v ∧ ∃ error, Garbles call v error := by
  by_cases hsize : body.length ≤ bodyLimit
  · -- The status of the envelope is not in what is left to decide.
    rw [judge_of_envelope hsize h]
    have hlong : ¬ bodyLimit < body.length := Nat.not_lt.2 hsize
    cases hdata : e.data with
    | none => simp
    | some v =>
      simp only [hlong, false_or, reduceCtorEq, Option.some.injEq, exists_eq_left']
      refine ⟨fun ⟨error, herror⟩ => ?_, fun ⟨error, hv⟩ => ⟨error, hv.answer_eq⟩⟩
      refine (answers_or_garbles call v).resolve_left fun ⟨a, ha⟩ => ?_
      rw [ha.answer_eq] at herror
      cases herror
  · have hlong := Nat.lt_of_not_le hsize
    refine iff_of_true ⟨_, judge_of_unreadable call _ fun bs hbs => ?_⟩ (.inl hlong)
    cases hbs
    exact hlong

end Rest

namespace Wire

/-- A reply over a connection that reports a failure is an error.  An answer by HTTP
    whose envelope reports one is an error only if it is too long, its envelope holds no
    data, or the data is no answer to a command. -/
theorem failure_noticed_iff (call : Call) (port : UInt16) (status : String) (response : Answer)
    (hstatus : status ≠ Envelope.successStatus) (body : Bytes) (data : Option Json.Value)
    (message : Option String)
    (hparse : Envelope.parse (Utf8.decodeLossy body) = .ok ⟨status, data, message⟩) :
    (∃ e, Rpc.judge port (.reply status response) = .error e) ∧
    ((∃ e, Rest.judge call (.answered (Rest.expectedStatus call) (some body)) = .error e) ↔
      Rest.bodyLimit < body.length ∨ data = none ∨
        ∃ command payload v, call = .exec command payload ∧ data = some v ∧
          ∀ s, v = .text s → ¬ Hex.IsText s) := by
  refine ⟨⟨_, (Rpc.Transient.failed response hstatus).judge_eq⟩, ?_⟩
  rw [Rest.exists_judge_error_iff hparse]
  refine or_congr_right (or_congr_right ⟨?_, ?_⟩)
  · rintro ⟨v, hv, hgarbled⟩
    obtain ⟨command, payload, hcall, hno⟩ := Rest.exists_garbles_iff.1 hgarbled
    exact ⟨command, payload, v, hcall, hv, hno⟩
  · rintro ⟨command, payload, v, hcall, hv, hno⟩
    exact ⟨v, hv, Rest.exists_garbles_iff.2 ⟨command, payload, hcall, hno⟩⟩

/-- An envelope that reports a failure and holds data all the same. -/
def contraryReply : Envelope :=
  ⟨"error", some (.text "pong"), none⟩

theorem parse_contraryReply :
    Envelope.parse (Utf8.decodeLossy (Utf8.encode contraryReply.render)) = .ok contraryReply := by
  rw [Utf8.decodeLossy_encode]
  exact Envelope.parse_render_text _ _ _

/-- The status of this envelope is noticed in a command, to which `pong` is no answer. -/
theorem failure_noticed_in_exec :
    (∃ e, Rpc.judge 9555 (.reply "error" (.bytes [])) = .error e) ∧
    ∃ e, Rest.judge (.exec "echo" []) (.answered (Rest.expectedStatus (.exec "echo" []))
      (some (Utf8.encode contraryReply.render))) = .error e := by
  have hno : ¬ Hex.IsText "pong" := by decide +kernel
  have h := failure_noticed_iff (.exec "echo" []) 9555 "error" (.bytes []) (by decide)
    (Utf8.encode contraryReply.render) (some (.text "pong")) none parse_contraryReply
  refine ⟨h.1, h.2.2 (.inr (.inr ⟨_, _, _, rfl, rfl, fun s hs => ?_⟩))⟩
  cases hs
  exact hno

/-- A ping that is answered so has succeeded, over a connection it has failed. -/
theorem failure_taken_for_success :
    contraryReply.status ≠ Envelope.successStatus ∧
    Envelope.parse (Utf8.decodeLossy (Utf8.encode contraryReply.render)) = .ok contraryReply ∧
    Rest.expectedStatus .ping = 200 ∧
    Rest.judge .ping (.answered 200 (some (Utf8.encode contraryReply.render)))
      = .ok (.text "pong") ∧
    ∃ e, Rpc.judge 9555 (.reply contraryReply.status (.text "pong")) = .error e := by
  have hsize : (Utf8.encode contraryReply.render).length ≤ Rest.bodyLimit := by decide +kernel
  have hstatus : contraryReply.status ≠ Envelope.successStatus := by decide
  refine ⟨hstatus, parse_contraryReply, rfl,
    Rest.judge_of_envelope hsize parse_contraryReply, _, (Rpc.Transient.failed _ hstatus).judge_eq⟩

end Wire

end PluginHost
