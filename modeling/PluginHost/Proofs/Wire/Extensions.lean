/-
  PluginHost.Proofs.Wire.Extensions

  Answers that say more than is asked for.  The members of an envelope, and those of its
  data, may stand in any order, with blanks where the grammar lets them and with members
  between them that nobody knows (`Edited`); what is made of the answer is the same.  A
  member that is known may be given once only.
-/
import Mathlib.Logic.Relation
import PluginHost.Call.Rest
import PluginHost.Proofs.Json.Grammar
import PluginHost.Proofs.Schema.Members
import PluginHost.Proofs.Text.Utf8

namespace PluginHost
namespace Envelope

open Json Json.Grammar
open Schema (MemberEdit Record)

/-! ## Changes -/

/-- The members that an envelope knows. -/
def knownOuter : List String :=
  ["status", "data", "message"]

/-- The members that the data of an envelope knows. -/
def knownData : List String :=
  ["response"]

/-- One change to an envelope, which leaves what is made of it as it is. -/
inductive Edit : Document → Document → Prop where
  /-- A change to the members of the envelope. -/
  | outer {d e : Document} (h : MemberEdit knownOuter d e) : Edit d e
  /-- A change to the members of its data. -/
  | data (before after : List (Option String × Document)) {d e : Document}
      (h : MemberEdit knownData d e) :
      Edit (.map (before ++ (some "data", d) :: after) true)
        (.map (before ++ (some "data", e) :: after) true)

/-- Envelopes that changes lead from one to the other, forth and back. -/
def Edited : Document → Document → Prop :=
  Relation.EqvGen Edit

/-- A known member stands there twice, in the envelope or in its data. -/
def Repeats (es : List (Option String × Document)) : Prop :=
  (∃ key ∈ knownOuter, 1 < (es.map (·.1)).count (some key)) ∨
    ∃ ds, (some "data", .map ds true) ∈ es ∧
      ∃ key ∈ knownData, 1 < (ds.map (·.1)).count (some key)

/-! ## The records -/

theorem dataRecord_lawful : dataRecord.Lawful := by
  constructor
  · intro draft draft' f d h g
    obtain ⟨v, -, rfl⟩ := map_eq_ok_iff.1 h
    simp [dataRecord]
  · intro f g hne
    exact absurd rfl hne

theorem record_lawful : record.Lawful := by
  constructor
  · intro draft draft' f d h g
    cases f
    all_goals
      obtain ⟨v, -, hv⟩ := bind_eq_ok_iff.1 h
      obtain rfl := Except.ok.inj hv
      cases g <;> simp [record]
  · intro f g hne draft d e
    cases f <;> cases g
    all_goals first
      | exact absurd rfl hne
      | simp only [record, bind_assoc, pure_bind]
        exact alike_comm _ _ _

theorem dataRecord_unknown (key : String) (h : key ∉ knownData) :
    dataRecord.fieldOf key = none := by
  simp only [knownData, List.mem_singleton] at h
  simp only [dataRecord]

theorem record_unknown (key : String) (h : key ∉ knownOuter) : record.fieldOf key = none := by
  simp only [knownOuter, List.mem_cons, List.not_mem_nil, not_or] at h
  simp only [record]
  split <;> simp_all

/-- The field of a known member. -/
theorem exists_field_of_mem {key : String} (h : key ∈ knownOuter) :
    ∃ f, record.fieldOf key = some f := by
  simp only [knownOuter, List.mem_cons, List.not_mem_nil, or_false] at h
  obtain rfl | rfl | rfl := h
  · exact ⟨.status, rfl⟩
  · exact ⟨.data, rfl⟩
  · exact ⟨.message, rfl⟩

/-! ## What is made of an answer -/

/-- Data that is read alike fills an envelope alike. -/
theorem fill_data_alike {es fs : List (Option String × Document)} {b b' : Bool}
    (h : Alike (dataRecord.read .refused (.map es b)) (dataRecord.read .refused (.map fs b')))
    (draft : Draft) :
    Alike (record.fill draft .data (.map es b)) (record.fill draft .data (.map fs b')) :=
  (h.map some).bind _

theorem Edit.alike {d e : Document} (h : Edit d e) :
    Alike (record.read .refused d) (record.read .refused e) := by
  cases h with
  | outer h => exact h.alike record_lawful record_unknown .refused
  | data before after h =>
    have hdata := h.alike dataRecord_lawful dataRecord_unknown .refused
    refine Record.read_map_of_alike (f := Field.data) rfl ?_ .refused before after
    cases h with
    | reorder => exact fill_data_alike hdata
    | add => exact fill_data_alike hdata

theorem Edited.alike {d e : Document} (h : Edited d e) :
    Alike (record.read .refused d) (record.read .refused e) := by
  induction h with
  | rel d e h => exact h.alike
  | refl d => exact Alike.refl _
  | symm d e _ ih => exact ih.symm
  | trans d e f _ _ ih₁ ih₂ => exact ih₁.trans ih₂

theorem read_of_repeats {es : List (Option String × Document)} (h : Repeats es) :
    (record.read .refused (.map es true)).toOption = none := by
  obtain ⟨key, hkey, hcount⟩ | ⟨ds, hds, key, hkey, hcount⟩ := h
  · obtain ⟨f, hf⟩ := exists_field_of_mem hkey
    exact record_lawful.read_of_repeated .refused hf hcount
  · obtain rfl := List.mem_singleton.1 hkey
    have hdata : (dataRecord.read .refused (.map ds true)).toOption = none :=
      dataRecord_lawful.read_of_repeated .refused (f := .response) rfl hcount
    refine Record.read_map_of_mem .refused hds (f := Field.data) rfl fun draft => ?_
    show (some <$> dataRecord.read .refused (.map ds true) >>= _).toOption = none
    rw [toOption_bind, toOption_map, hdata]
    rfl

/-- The response in a body comes from the envelope that its text holds. -/
theorem toOption_response (s : String) :
    (Rest.response (Utf8.encode s)).toOption = (parse s).toOption.bind (·.data) := by
  rw [Rest.response, Utf8.decodeLossy_encode]
  cases parse s with
  | error problem => rfl
  | ok envelope =>
    obtain ⟨status, data, message⟩ := envelope
    cases data <;> rfl

/-- Two texts whose envelopes differ by order, by blanks or by members that nobody knows are
    parsed alike, and the same response comes of both or of neither.  Of a text that gives a
    known member twice, wherever that is, none comes. -/
theorem extensions_tolerated :
    (∀ {s t : String} {d e : Document}, Holds s d → Holds t e → Edited d e →
      Alike (parse s) (parse t) ∧
        Alike (Rest.response (Utf8.encode s)) (Rest.response (Utf8.encode t))) ∧
    (∀ {s : String} {es : List (Option String × Document)}, Holds s (.map es true) → Repeats es →
      ∃ error, Rest.response (Utf8.encode s) = .error error) := by
  constructor
  · intro s t d e hs ht h
    have hparse : Alike (parse s) (parse t) := by
      rw [parse, parse, readAs_of_holds hs, readAs_of_holds ht]
      exact h.alike
    refine ⟨hparse, ?_⟩
    rw [Alike, toOption_response, toOption_response, hparse]
  · intro s es hs h
    refine toOption_eq_none_iff.1 ?_
    rw [toOption_response, parse, readAs_of_holds hs, read_of_repeats h]
    rfl

/-- A small answer. -/
def plainText : String :=
  "\x7b\"status\":\"ok\",\"data\":\x7b\"response\":true\x7d\x7d"

/-- The same in another order, with blanks and with more members. -/
def extendedText : String :=
  "\x7b \"data\":\x7b\"response\":true,\n\"a\":[]\x7d , \"b\":null,\"status\":\"ok\"\x7d "

/-- An answer that gives its data twice. -/
def repeatedText : String :=
  "\x7b\"data\":null,\"status\":\"ok\",\"data\":\x7b\"response\":true\x7d\x7d"

/-- The data of the small answer, and what it becomes. -/
def smallData (more : List (Option String × Document)) : Document :=
  .map ((some "response", .bool true) :: more) true

/-- The members of the three answers. -/
def plainMembers : List (Option String × Document) :=
  [(some "status", .text "ok"), (some "data", smallData [])]

def extendedMembers : List (Option String × Document) :=
  [(some "data", smallData [(some "a", .seq [] true)]), (some "b", .null),
    (some "status", .text "ok")]

def repeatedMembers : List (Option String × Document) :=
  [(some "data", .null), (some "status", .text "ok"), (some "data", smallData [])]

theorem holds_texts : Holds plainText (.map plainMembers true) ∧
    Holds extendedText (.map extendedMembers true) ∧
    Holds repeatedText (.map repeatedMembers true) := by
  have hstatus := member_plain ['s', 't', 'a', 't', 'u', 's'] (by decide)
    (.text (literal_plain ['o', 'k'] (by decide)))
  have hresponse := member_plain ['r', 'e', 's', 'p', 'o', 'n', 's', 'e'] (by decide) .yes
  have hdata {cs : List Char} {d : Document} (h : Value cs d) :=
    member_plain ['d', 'a', 't', 'a'] (by decide) h
  have ha := member_plain ['a'] (by decide) (.emptyList blanks_nil)
  have hb := member_plain ['b'] (by decide) .null
  have hspace : Blanks [' '] := by decide
  have hline : Blanks ['\n'] := by decide
  have hplain := hdata (.record blanks_nil (.one hresponse blanks_nil))
  have hextended := hdata (.record blanks_nil
    (.more hresponse blanks_nil hline (.one ha blanks_nil)))
  have hplainValue := Value.record blanks_nil
    (.more hstatus blanks_nil blanks_nil (.one hplain blanks_nil))
  have hextendedValue := Value.record hspace
    (.more hextended hspace hspace (.more hb blanks_nil blanks_nil (.one hstatus blanks_nil)))
  have hrepeatedValue := Value.record blanks_nil
    (.more (hdata .null) blanks_nil blanks_nil
      (.more hstatus blanks_nil blanks_nil (.one hplain blanks_nil)))
  have hplainText := Holds.intro blanks_nil hplainValue blanks_nil
  have hextendedText := Holds.intro blanks_nil hextendedValue hspace
  have hrepeatedText := Holds.intro blanks_nil hrepeatedValue blanks_nil
  exact ⟨hplainText, hextendedText, hrepeatedText⟩

theorem edited_members : Edited (.map plainMembers true) (.map extendedMembers true) := by
  have hdata : Edit (.map plainMembers true)
      (.map [(some "status", .text "ok"), (some "data", smallData [(some "a", .seq [] true)])]
        true) :=
    .data [_] [] (.add [_] [] (by decide) rfl)
  have hadd : Edit
      (.map [(some "status", .text "ok"), (some "data", smallData [(some "a", .seq [] true)])] true)
      (.map ((some "status", .text "ok") :: extendedMembers.take 2) true) :=
    .outer (.add [_, _] [] (by decide) rfl)
  have hreorder : Edit (.map ((some "status", .text "ok") :: extendedMembers.take 2) true)
      (.map extendedMembers true) :=
    .outer (.reorder (List.perm_append_singleton _ _).symm)
  exact .trans _ _ _ (.rel _ _ hdata) (.trans _ _ _ (.rel _ _ hadd) (.rel _ _ hreorder))

/-- The response of the small answer is found when the answer is extended, and no response is
    found where data is given twice. -/
theorem small_extensions_tolerated :
    parse plainText = .ok ⟨"ok", some (.bool true), none⟩ ∧
      (Alike (parse plainText) (parse extendedText) ∧
        Alike (Rest.response (Utf8.encode plainText))
          (Rest.response (Utf8.encode extendedText))) ∧
      ∃ error, Rest.response (Utf8.encode repeatedText) = .error error := by
  obtain ⟨hplain, hextended, hrepeated⟩ := holds_texts
  obtain ⟨htolerated, hrefused⟩ := extensions_tolerated
  refine ⟨?_, htolerated hplain hextended edited_members,
    hrefused hrepeated (.inl ⟨"data", by decide, by decide⟩)⟩
  rw [parse, readAs_of_holds hplain]
  rfl

end Envelope
end PluginHost
