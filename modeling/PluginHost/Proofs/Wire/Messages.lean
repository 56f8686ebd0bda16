/-
  PluginHost.Proofs.Wire.Messages

  What is sent and what is answered can be read again.  A command travels as a JSON text
  with its payload in hexadecimal digits, and an answer comes back in an envelope in the
  same way: two encodings, each undone by the other side.
-/
import PluginHost.Call.Rest
import PluginHost.Proofs.Json.Written
import PluginHost.Proofs.Text.Hex
import PluginHost.Proofs.Wire.Envelopes

namespace PluginHost

/-! ## Requests and envelopes -/

/-- A request that is written out is read again. -/
theorem ExecRequest.parse_render (r : ExecRequest) : parse (Utf8.encode r.render) = .ok r := by
  have hspells : Json.Spells r.render.toList
      (.map [(some "command", .text r.command), (some "payload", .text r.payload)] true) :=
    Json.spells_record (.cons ⟨rfl, Json.spells_quote r.command⟩
      (.cons ⟨rfl, Json.spells_quote r.payload⟩ .nil))
  rw [parse, Json.textOfBytes_encode, Json.readFront_of_spells hspells]
  rfl

namespace Envelope

/-- An envelope with a text is read again, whatever its status. -/
theorem parse_render_text (status s : String) (message : Option String) :
    parse (render ⟨status, some (.text s), message⟩) = .ok ⟨status, some (.text s), message⟩ := by
  refine parse_render ?_ ?_
  · rintro v ⟨⟩
    rfl
  · rintro v ⟨⟩
    exact ⟨Nat.zero_le _, rfl⟩

end Envelope

/-! ## Answers to commands -/

theorem Json.escape_of_isDigit {c : Char} (h : Hex.IsDigit c) : Json.Value.escape c = [c] := by
  have hne : ∀ d, ¬ Hex.IsDigit d → c ≠ d := fun d hd heq => hd (heq ▸ h)
  have hlow : ¬ c.toNat < 0x20 :=
    Nat.not_lt.2 (Nat.le_trans (by decide) (Hex.bounds_of_isDigit h).1)
  rw [Json.Value.escape, if_neg (hne _ (by decide)), if_neg (hne _ (by decide)),
    if_neg (hne _ (by decide)), if_neg (hne _ (by decide)), if_neg (hne _ (by decide)),
    if_neg (hne _ (by decide)), if_neg (hne _ (by decide)), if_neg hlow]

namespace Rest

/-- The answer of a plugin that gives bytes. -/
def bytesReply (bs : Bytes) : Bytes :=
  Utf8.encode (Envelope.success (.text (Hex.encode bs))).render

/-- What stands in such an answer before the digits. -/
def replyFront : List Char :=
  '\x7b' :: (Json.Value.quote "status" ++ ':' :: Json.Value.quote Envelope.successStatus ++ ','
    :: (Json.Value.quote "data" ++ ':' :: '\x7b' :: (Json.Value.quote "response" ++ [':', '"'])))

theorem quote_hex (bs : Bytes) :
    Json.Value.quote (Hex.encode bs) = '"' :: ((Hex.encode bs).toList ++ ['"']) := by
  -- No digit has to be escaped.
  have hdigits := (Hex.exists_decode_iff.1 ⟨bs, Hex.decode_encode bs⟩).2
  rw [Json.Value.quote, List.flatMap_def,
    List.map_congr_left fun c hc => Json.escape_of_isDigit (hdigits c hc), ← List.flatMap_def,
    List.flatMap_singleton', List.cons_append]

theorem toList_render_success (bs : Bytes) :
    (Envelope.success (.text (Hex.encode bs))).render.toList =
      replyFront ++ ((Hex.encode bs).toList ++ ['"', '\x7d', '\x7d']) := by
  have hdata : Envelope.dataChars (.text (Hex.encode bs)) = '\x7b' :: (Json.Value.quote "response"
      ++ ':' :: ('"' :: ((Hex.encode bs).toList ++ ['"']))) ++ ['\x7d'] := by
    rw [← quote_hex]
    exact String.toList_ofList
  have hrender : (Envelope.success (.text (Hex.encode bs))).render.toList =
      '\x7b' :: ((Json.Value.quote "status" ++ ':' :: Json.Value.quote Envelope.successStatus)
        ++ ',' :: (Json.Value.quote "data" ++ ':' :: Envelope.dataChars (.text (Hex.encode bs))))
        ++ ['\x7d'] := String.toList_ofList
  rw [hrender, hdata, replyFront]
  simp only [List.cons_append, List.append_assoc, List.nil_append]

theorem length_bytesReply (bs : Bytes) : (bytesReply bs).length = 2 * bs.length + 43 := by
  have hfront : (replyFront.flatMap Utf8.encodeChar).length = 40 := by decide
  have hback : ((['"', '\x7d', '\x7d'] : List Char).flatMap Utf8.encodeChar).length = 3 := by decide
  -- Two digits for each byte; all else is ASCII.
  have hhex := Hex.length_encode_bytes bs
  rw [Utf8.encode] at hhex
  rw [bytesReply, Utf8.encode, toList_render_success, List.flatMap_append, List.flatMap_append,
    List.length_append, List.length_append, hfront, hhex, hback]
  omega

theorem body_request (command : String) (payload : Bytes) :
    (request (.exec command payload)).body
      = Utf8.encode (ExecRequest.render ⟨command, Hex.encode payload⟩) := by
  rw [request]

/-- The digits of the payload are part of what is sent. -/
theorem length_body_request (command : String) (payload : Bytes) :
    2 * payload.length ≤ (request (.exec command payload)).body.length := by
  have hrender : (ExecRequest.render ⟨command, Hex.encode payload⟩).toList =
      '\x7b' :: ((Json.Value.quote "command" ++ ':' :: Json.Value.quote command)
        ++ ',' :: (Json.Value.quote "payload" ++ ':' :: Json.Value.quote (Hex.encode payload)))
        ++ ['\x7d'] := String.toList_ofList
  have hhex := Hex.length_encode_bytes payload
  rw [Utf8.encode] at hhex
  rw [body_request, Utf8.encode, hrender, quote_hex, ← hhex]
  simp only [List.cons_append, List.append_assoc, List.flatMap_append, List.flatMap_cons,
    List.length_append]
  omega

end Rest

end PluginHost
