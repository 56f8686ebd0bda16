/-
  PluginHost.Proofs.Wire.Transparency

  The wire carries commands and payloads unchanged: what one side writes the other
  reads back, in both directions.  The echo plugin shows it from end to end.
-/
import PluginHost.Call.Peer
import PluginHost.EchoPlugin
import PluginHost.Proofs.Wire.Retrying

namespace PluginHost

namespace EchoPlugin

/-! ## What the echo plugin makes of a request -/

/-- A byte with the small letters of ASCII made capital. -/
def capital (b : UInt8) : UInt8 :=
  (Char.ofNat b.toNat).toUpper.toNat.toUInt8

theorem capital_eq (b : UInt8) : capital b = if 97 ≤ b ∧ b ≤ 122 then b - 32 else b := by
  have hall : ∀ n < 256, capital (UInt8.ofNat n) =
      if 97 ≤ UInt8.ofNat n ∧ UInt8.ofNat n ≤ 122 then UInt8.ofNat n - 32 else UInt8.ofNat n := by
    decide +kernel
  have hb := hall b.toNat b.toNat_lt
  rwa [UInt8.ofNat_toNat] at hb

theorem run_upper (payload : Bytes) : run "upper" payload = some (payload.map capital) := by
  rw [run, if_neg (by decide), if_pos rfl, funext capital_eq]

theorem reply_exec (contentType : Option String) (body : Bytes) :
    reply "POST" "/exec" contentType body = execBody contentType body := by
  have hroute : route "/exec" = "/exec" := by decide +kernel
  rw [reply, hroute]
  rfl

/-- The plugin is given the command and the payload that were sent. -/
theorem outcome_request {command : String} {payload : Bytes}
    (hsize : (Rest.request (.exec command payload)).body.length ≤ bodyLimit) :
    outcome (Rest.request (.exec command payload)) =
      .answered (exec ⟨command, Hex.encode payload⟩).status
        (some (Utf8.encode ((exec ⟨command, Hex.encode payload⟩).body.getD ""))) := by
  have hparse : ExecRequest.parse (Rest.request (.exec command payload)).body
      = .ok ⟨command, Hex.encode payload⟩ := by
    rw [Rest.body_request]
    exact ExecRequest.parse_render _
  have hjson : announcesJson "application/json" = true := by decide +kernel
  have hlimit : ¬ bodyLimit < (Rest.request (.exec command payload)).body.length :=
    Nat.not_lt.2 hsize
  have hbody : execBody (some "application/json") (Rest.request (.exec command payload)).body
      = exec ⟨command, Hex.encode payload⟩ := by
    rw [execBody, Option.map_some, Option.getD_some, hjson, if_pos rfl, if_neg hlimit, hparse]
  rw [Rest.body_request] at hbody
  rw [outcome, Rest.request]
  simp only [reply_exec, hbody]

variable {command : String} {payload output : Bytes}

theorem exec_of_run_none (hrun : run command payload = none) :
    exec ⟨command, Hex.encode payload⟩ = .ofEnvelope 400 (.failure "Unknown command") := by
  simp only [exec, Hex.decode_encode, hrun]

theorem exec_of_run_some (hrun : run command payload = some output) :
    exec ⟨command, Hex.encode payload⟩
      = .ofEnvelope 202 (.success (.text (Hex.encode output))) := by
  simp only [exec, Hex.decode_encode, hrun]

/-! ## What comes of its replies -/

theorem judge_outcome_of_run_none
    (hsize : (Rest.request (.exec command payload)).body.length ≤ bodyLimit)
    (hrun : run command payload = none) :
    Rest.judge (.exec command payload) (outcome (Rest.request (.exec command payload)))
      = .error (.execRefused 400) := by
  have hreply : (Utf8.encode (Envelope.failure "Unknown command").render).length
      ≤ Rest.bodyLimit := by
    decide +kernel
  have hstatus : (400 : Nat) ≠ Rest.expectedStatus (.exec command payload) := by
    rw [Rest.expectedStatus]
    decide
  rw [outcome_request hsize, exec_of_run_none hrun]
  exact Rest.judge_of_status_ne hreply hstatus

theorem judge_outcome_of_run_some
    (hsize : (Rest.request (.exec command payload)).body.length ≤ bodyLimit)
    (hrun : run command payload = some output) (hlength : output.length = payload.length) :
    Rest.judge (.exec command payload) (outcome (Rest.request (.exec command payload)))
      = .ok (.bytes output) := by
  -- The digits of the payload were within the smaller limit of the request, and the
  -- reply holds as many.
  have hreply : (Rest.bytesReply output).length ≤ Rest.bodyLimit := by
    have hbody := Rest.length_body_request command payload
    rw [Rest.length_bytesReply, hlength]
    unfold bodyLimit at hsize
    unfold Rest.bodyLimit
    omega
  rw [outcome_request hsize, exec_of_run_some hrun]
  exact Rest.judge_bytesReply command payload output hreply

end EchoPlugin

/-! ## From end to end -/

namespace Wire

variable {σ κ : Type}

/-- A command and its payload are read as they were sent, and bytes that a plugin answers
    come back as they were.  So a payload comes back from the echo plugin as it is for
    `echo` and in capitals for `upper`, and every other command is refused. -/
theorem transparent (w : Wire σ κ) (o : Rest.Options) (peer : String) (policy : Retry.Policy)
    (s : σ) (command : String) (payload : Bytes) :
    (∃ r, ExecRequest.parse (Rest.request (.exec command payload)).body = .ok r ∧
      r.command = command ∧ Hex.decode r.payload = .ok payload) ∧
    (∀ bs, (Rest.bytesReply bs).length ≤ Rest.bodyLimit →
      (w.request o.caller (Rest.request (.exec command payload)) s).1.value
        = .answered 202 (some (Rest.bytesReply bs)) →
      (w.attempt (.exec command payload) ⟨.rest o, peer, policy⟩ s).1.outcome
        = .ok (.bytes bs)) ∧
    ((Rest.request (.exec command payload)).body.length ≤ EchoPlugin.bodyLimit →
      (w.request o.caller (Rest.request (.exec command payload)) s).1.value
        = EchoPlugin.outcome (Rest.request (.exec command payload)) →
      (w.attempt (.exec command payload) ⟨.rest o, peer, policy⟩ s).1.outcome =
        if command = "echo" then .ok (.bytes payload)
        else if command = "upper" then .ok (.bytes (payload.map EchoPlugin.capital))
        else .error (.execRefused 400)) := by
  refine ⟨⟨⟨command, Hex.encode payload⟩, ?_, rfl, Hex.decode_encode payload⟩, ?_, ?_⟩
  · rw [Rest.body_request]
    exact ExecRequest.parse_render _
  · intro bs hsize hreply
    rw [attempt_rest, hreply]
    exact Rest.judge_bytesReply command payload bs hsize
  · intro hsize hreply
    rw [attempt_rest, hreply]
    split
    · rename_i hecho
      subst hecho
      exact EchoPlugin.judge_outcome_of_run_some hsize rfl rfl
    split
    · rename_i hupper
      subst hupper
      exact EchoPlugin.judge_outcome_of_run_some hsize (EchoPlugin.run_upper payload)
        (List.length_map _)
    · rename_i hecho hupper
      refine EchoPlugin.judge_outcome_of_run_none hsize ?_
      rw [EchoPlugin.run, if_neg hecho, if_neg hupper]

/-- The echo plugin at a port of this machine, and a plugin that always answers the same
    two bytes. -/
def echoNetwork : Http.Network
  | 9555 => .program EchoPlugin.outcome
  | _ => .program fun _ => .answered 202 (some (Rest.bytesReply [0, 255]))

theorem transparent_to_echo :
    ((Peer.wire echoNetwork).attempt (.exec "upper" [104, 105])
      ⟨.rest ⟨"127.0.0.1", 9555, 5000⟩, "", {}⟩ (.empty, 0)).1.outcome = .ok (.bytes [72, 73]) ∧
    ((Peer.wire echoNetwork).attempt (.exec "upper" [104, 105])
      ⟨.rest ⟨"127.0.0.1", 9556, 5000⟩, "", {}⟩ (.empty, 0)).1.outcome = .ok (.bytes [0, 255]) := by
  have hsize : (Rest.request (.exec "upper" [104, 105])).body.length ≤ EchoPlugin.bodyLimit := by
    decide +kernel
  have hreply : (Rest.bytesReply [0, 255]).length ≤ Rest.bodyLimit := by decide +kernel
  have hecho : Rest.localPort? (Rest.Options.baseUrl ⟨"127.0.0.1", 9555, 5000⟩) = some 9555 := by
    decide +kernel
  have hother : Rest.localPort? (Rest.Options.baseUrl ⟨"127.0.0.1", 9556, 5000⟩) = some 9556 := by
    decide +kernel
  obtain ⟨-, -, hcapital⟩ := transparent (Peer.wire echoNetwork) ⟨"127.0.0.1", 9555, 5000⟩ "" {}
    (.empty, 0) "upper" [104, 105]
  obtain ⟨-, hbytes, -⟩ := transparent (Peer.wire echoNetwork) ⟨"127.0.0.1", 9556, 5000⟩ "" {}
    (.empty, 0) "upper" [104, 105]
  constructor
  · refine hcapital hsize ?_
    simp only [Peer.wire, Rest.exchange, Rest.Options.caller, hecho]
    rfl
  · refine hbytes _ hreply ?_
    simp only [Peer.wire, Rest.exchange, Rest.Options.caller, hother]
    rfl

end Wire

end PluginHost
