/-
  PluginHost.Proofs.Wire.Envelopes

  Envelopes, written and read again.  What is absent is left out and read as absent, and
  a response that is `null` is not absent.  The room that the decoder leaves for a
  response is what bounds the round trip, and a response that was read is within it.
-/
import PluginHost.Call.Envelope
import PluginHost.Proofs.Json.Values
import PluginHost.Proofs.Schema

namespace PluginHost
namespace Envelope

open Schema

/-- The document of an envelope. -/
def document (e : Envelope) : Document :=
  let data := e.data.map fun v => (some "data", .map [(some "response", v.document)] true)
  let message := e.message.map fun m => (some "message", .text m)
  .map ((some "status", .text e.status) :: data.toList ++ message.toList) true

/-- The text of an envelope spells its document. -/
theorem spells_render {e : Envelope} (h : ∀ v ∈ e.data, v.isExact = true) :
    Json.Spells e.render.toList e.document := by
  obtain ⟨status, data, message⟩ := e
  have hmessage : Json.SpellEntries
      (message.map fun m => ("message", Json.Value.quote m)).toList
      (message.map fun m => (some "message", Document.text m)).toList := by
    cases message with
    | none => exact .nil
    | some m => exact .cons ⟨rfl, Json.spells_quote m⟩ .nil
  cases data with
  | none => exact Json.spells_record (.cons ⟨rfl, Json.spells_quote status⟩ hmessage)
  | some v =>
    have hvalue := Json.Value.spells_chars v (h v rfl)
    have hdata : Json.Spells (dataChars v) (.map [(some "response", v.document)] true) :=
      Json.spells_record (.cons ⟨rfl, hvalue⟩ .nil)
    exact Json.spells_record
      (.cons ⟨rfl, Json.spells_quote status⟩ (.cons ⟨rfl, hdata⟩ hmessage))

/-- Data is read if its response can be decoded. -/
theorem read_data {v : Json.Value} {d : Document}
    (h : Json.Value.ofDocument responseRoom d = .ok v) :
    dataRecord.read .refused (.map [(some "response", d)] true) = .ok v := by
  have hfill : dataRecord.fill none .response d = .ok (some v) := by
    simp only [dataRecord, h]
    rfl
  have hentries := Record.fillEntries_cons (r := dataRecord) (k := "response") rfl rfl hfill []
  have hfinish : dataRecord.finish (some v) = .ok v := rfl
  exact Record.read_map hentries hfinish .refused

/-- The document of an envelope is decoded to that envelope. -/
theorem read_document {e : Envelope} (h : ∀ v ∈ e.data, v.Fits responseRoom) :
    record.read .refused e.document = .ok e := by
  obtain ⟨status, data, message⟩ := e
  cases data with
  | none => cases message <;> rfl
  | some v =>
    obtain ⟨hdepth, hordered⟩ := h v rfl
    have hdata := read_data (Json.Value.ofDocument_document v responseRoom hdepth hordered)
    have hfill : record.fill { status := some status } .data
        (.map [(some "response", v.document)] true)
          = .ok { status := some status, data := some (some v) } := by
      simp only [record, option, hdata]
      rfl
    have hentries (es : List (Option String × Document)) : record.fillEntries record.blank
        ((some "status", .text status) :: (some "data", .map [(some "response", v.document)] true)
          :: es) = record.fillEntries { status := some status, data := some (some v) } es :=
      (Record.fillEntries_cons (k := "status") rfl rfl rfl _).trans
        (Record.fillEntries_cons (k := "data") rfl rfl hfill es)
    cases message with
    | none => exact Record.read_map (hentries []) rfl .refused
    | some m => exact Record.read_map (hentries [(some "message", .text m)]) rfl .refused

/-- An envelope that is written out is read again. -/
theorem parse_render {e : Envelope} (hexact : ∀ v ∈ e.data, v.isExact = true)
    (hfits : ∀ v ∈ e.data, v.Fits responseRoom) : parse e.render = .ok e := by
  rw [parse, Json.readAs_of_spells (spells_render hexact), read_document hfits]

/-! ## What is read -/

theorem fits_of_read_data {d : Document} {v : Json.Value}
    (h : dataRecord.read .refused d = .ok v) : v.Fits responseRoom := by
  obtain ⟨draft, hdraft, hfinish⟩ := Record.exists_draft_of_read
    (P := fun draft => ∀ v ∈ draft, v.Fits responseRoom) (by simp [dataRecord])
    (fun {draft f d draft'} _ hfill => by
      obtain ⟨v, hv, rfl⟩ := map_eq_ok_iff.1 hfill
      intro v' hv'
      cases hv'
      exact Json.Value.fits_of_ofDocument d hv) h
  cases draft with
  | none => cases hfinish
  | some v' =>
    cases hfinish
    exact hdraft v rfl

theorem fits_of_fill {draft draft' : Draft} {f : Field} {d : Document}
    (hdraft : ∀ v ∈ draft.data.getD none, v.Fits responseRoom)
    (h : record.fill draft f d = .ok draft') :
    ∀ v ∈ draft'.data.getD none, v.Fits responseRoom := by
  cases f with
  | status =>
    obtain ⟨s, -, hs⟩ := bind_eq_ok_iff.1 h
    cases hs
    exact hdraft
  | message =>
    obtain ⟨m, -, hm⟩ := bind_eq_ok_iff.1 h
    cases hm
    exact hdraft
  | data =>
    obtain ⟨data, hdata, hd⟩ := bind_eq_ok_iff.1 h
    cases hd
    intro v hv
    obtain rfl : data = some v := hv
    -- A response that is there was read as data: `null` is read as its absence.
    unfold option at hdata
    split at hdata
    · cases hdata
    · obtain ⟨v', hread, heq⟩ := map_eq_ok_iff.1 hdata
      cases heq
      exact fits_of_read_data hread

/-- The response of an envelope that was read is within the room for it. -/
theorem fits_of_parse {s : String} {e : Envelope} (h : parse s = .ok e) :
    ∀ v ∈ e.data, v.Fits responseRoom := by
  obtain ⟨e', hread, hend⟩ := bind_eq_ok_iff.1 h
  obtain rfl : e' = e := by
    split at hend
    · exact Except.ok.inj hend
    · cases hend
  obtain ⟨draft, hdraft, hfinish⟩ := Record.exists_draft_of_read
    (P := fun draft => ∀ v ∈ draft.data.getD none, v.Fits responseRoom) (by simp [record])
    fits_of_fill hread
  obtain ⟨status, data, message⟩ := draft
  cases status with
  | none => cases hfinish
  | some status =>
    cases hfinish
    exact hdraft

/-! ## There and back -/

/-- Whatever its status and its message, and whether or not it has a response, an envelope
    is read again as it was written, if the numbers in its response are integers of 64
    bits, the keys of objects ascend as in every value that is kept, and lists and objects
    are nested at most 125 deep.  An envelope that was read is nested no deeper and has its
    keys in order, so writing and reading it once more changes nothing. -/
theorem envelope_round_trip :
    (∀ e : Envelope,
      (∀ v ∈ e.data, v.isExact = true ∧ v.isOrdered = true ∧ v.depth ≤ 125) →
        parse e.render = .ok e) ∧
    (∀ (s : String) (e : Envelope), parse s = .ok e → (∀ v ∈ e.data, v.isExact = true) →
      parse e.render = .ok e) := by
  constructor
  · intro e h
    exact parse_render (fun v hv => (h v hv).1) fun v hv => ⟨(h v hv).2.2, (h v hv).2.1⟩
  · intro s e hparse hexact
    exact parse_render hexact (fits_of_parse hparse)

/-- An answer with blanks and with its keys out of order. -/
def reorderedText : String :=
  "\x7b\"data\": \x7b\"response\": \x7b\"b\": -7, \"a\": [null, \"\\u00fc\"]\x7d\x7d" ++
    ", \"status\": \"success\"\x7d"

/-- What such an answer holds. -/
def reordered : Envelope :=
  .success (.object [("a", .array [.null, .text "ü"]), ("b", .int (-7))])

/-- An answer is the same after it was read and written, and so is one without data. -/
theorem reordered_round_trip :
    parse reorderedText = .ok reordered ∧ parse reordered.render = .ok reordered ∧
      parse (failure "not\nfound").render = .ok (failure "not\nfound") := by
  have hwritten : parse reordered.render = .ok reordered := by
    refine envelope_round_trip.1 reordered ?_
    rintro v ⟨⟩
    decide +kernel
  -- Both texts hold the same: what is read is written as the second one.
  have hsame : (parse reorderedText).toOption.any (fun e =>
      e.data.all Json.Value.isExact ∧ e.render = reordered.render) = true := by
    decide +kernel
  refine ⟨?_, hwritten, envelope_round_trip.1 (failure "not\nfound") (by rintro v ⟨⟩)⟩
  cases hread : parse reorderedText with
  | error e =>
    rw [hread] at hsame
    cases hsame
  | ok e =>
    rw [hread] at hsame
    obtain ⟨hexact, hrender⟩ := of_decide_eq_true hsame
    have hback := envelope_round_trip.2 reorderedText e hread fun v hv => by
      rw [Option.mem_def.1 hv] at hexact
      exact hexact
    rw [hrender, hwritten] at hback
    exact hback.symm

end Envelope
end PluginHost
