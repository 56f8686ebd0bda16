/-
  PluginHost.Proofs.Json.Values

  Values, written and read again.  The text of a value spells a document (`document`),
  and decoding that document gives the value back, provided that its numbers are integers
  of 64 bits, the keys of its objects ascend and it is not nested deeper than the decoder
  goes.  What the decoder gives always has ascending keys and is never nested deeper.
-/
import PluginHost.Proofs.Json.Integers
import PluginHost.Proofs.Schema

namespace PluginHost
namespace Json
namespace Value

mutual

/-- How deep arrays and objects are nested in a value. -/
def depth : Value → Nat
  | .array vs => itemsDepth vs + 1
  | .object es => entriesDepth es + 1
  | _ => 0

/-- The depth of the deepest item. -/
def itemsDepth : List Value → Nat
  | [] => 0
  | v :: vs => max v.depth (itemsDepth vs)

/-- The depth of the deepest entry. -/
def entriesDepth : List (String × Value) → Nat
  | [] => 0
  | (_, v) :: es => max v.depth (entriesDepth es)

end

mutual

/-- Whether all numbers in a value are integers of 64 bits. -/
def isExact : Value → Bool
  | .int n => decide (IsWord n)
  | .double _ => false
  | .array vs => allExact vs
  | .object es => allEntriesExact es
  | _ => true

/-- Whether all numbers in items are integers of 64 bits. -/
def allExact : List Value → Bool
  | [] => true
  | v :: vs => v.isExact && allExact vs

/-- Whether all numbers in entries are integers of 64 bits. -/
def allEntriesExact : List (String × Value) → Bool
  | [] => true
  | (_, v) :: es => v.isExact && allEntriesExact es

end

/-- Whether keys ascend, each of them once. -/
abbrev Ascending {α : Type} (es : List (String × α)) : Prop :=
  es.Pairwise fun e e' => e.1 < e'.1

mutual

/-- Whether the keys of all objects in a value ascend. -/
def isOrdered : Value → Bool
  | .array vs => allOrdered vs
  | .object es => decide (Ascending es) && allEntriesOrdered es
  | _ => true

/-- Whether the keys of all objects in items ascend. -/
def allOrdered : List Value → Bool
  | [] => true
  | v :: vs => v.isOrdered && allOrdered vs

/-- Whether the keys of all objects in entries ascend. -/
def allEntriesOrdered : List (String × Value) → Bool
  | [] => true
  | (_, v) :: es => v.isOrdered && allEntriesOrdered es

end

/-! ## What the text of a value spells -/

mutual

/-- The document that the text of a value holds. -/
def document : Value → Document
  | .null => .null
  | .bool b => .bool b
  | .int n => .int n
  | .double x => .double x
  | .text s => .text s
  | .array vs => .seq (itemDocuments vs) true
  | .object es => .map (entryDocuments es) true

/-- The documents of items. -/
def itemDocuments : List Value → List Document
  | [] => []
  | v :: vs => v.document :: itemDocuments vs

/-- The documents of entries. -/
def entryDocuments : List (String × Value) → List (Option String × Document)
  | [] => []
  | (k, v) :: es => (some k, v.document) :: entryDocuments es

end

theorem entryChars_eq_map (es : List (String × Value)) :
    entryChars es = (es.map fun e => (e.1, e.2.chars)).map Json.entryChars := by
  induction es with
  | nil => rfl
  | cons e es ih => rw [entryChars, List.map_cons, List.map_cons, ih, Json.entryChars]

theorem chars_object (es : List (String × Value)) :
    (object es).chars = (writeRecord (es.map fun e => (e.1, e.2.chars))).toList := by
  rw [chars, entryChars_eq_map]
  exact String.toList_ofList.symm

mutual

theorem spells_chars : (v : Value) → v.isExact = true → Spells v.chars v.document
  | .null, _ => .of_cons rfl fun _ _ _ _ => rfl
  | .bool true, _ => .of_cons rfl fun _ _ _ _ => rfl
  | .bool false, _ => .of_cons rfl fun _ _ _ _ => rfl
  | .int _, h => spells_toString (of_decide_eq_true h)
  | .text s, _ => spells_quote s
  | .array vs, h => spells_list (spells_items vs h)
  | .object es, h => by
    rw [chars_object]
    exact spells_record (spells_entries es h)

theorem spells_items : (vs : List Value) → allExact vs = true →
    List.Forall₂ Spells (itemChars vs) (itemDocuments vs)
  | [], _ => .nil
  | v :: vs, h =>
    have h := Bool.and_eq_true_iff.1 h
    .cons (spells_chars v h.1) (spells_items vs h.2)

theorem spells_entries : (es : List (String × Value)) → allEntriesExact es = true →
    SpellEntries (es.map fun e => (e.1, e.2.chars)) (entryDocuments es)
  | [], _ => .nil
  | (_, v) :: es, h =>
    have h := Bool.and_eq_true_iff.1 h
    .cons ⟨rfl, spells_chars v h.1⟩ (spells_entries es h.2)

end

/-! ## Ascending keys -/

section
variable {α : Type}

/-- An entry whose key comes last is put at the end. -/
theorem insert_last {k : String} {v : α} {es : List (String × α)} (h : ∀ e ∈ es, e.1 < k) :
    insert k v es = es ++ [(k, v)] := by
  induction es with
  | nil => rfl
  | cons e es ih =>
    obtain ⟨k', v'⟩ := e
    have hlt : k' < k := h (k', v') (by simp)
    have hne : k ≠ k' := fun heq => String.lt_irrefl k (heq ▸ hlt)
    rw [insert, if_neg (String.lt_asymm hlt), if_neg hne, ih fun e he => h e (by simp [he])]
    rfl

theorem mem_insert {k : String} {v : α} {es : List (String × α)} {e : String × α}
    (h : e ∈ insert k v es) : e = (k, v) ∨ e ∈ es := by
  induction es with
  | nil => exact .inl (by simpa [insert] using h)
  | cons e' es ih =>
    obtain ⟨k', v'⟩ := e'
    rw [insert] at h
    split at h
    · exact List.mem_cons.1 h
    split at h
    · obtain heq | hes := List.mem_cons.1 h
      · exact .inl heq
      · exact .inr (List.mem_cons_of_mem _ hes)
    · obtain heq | hes := List.mem_cons.1 h
      · exact .inr (heq ▸ List.mem_cons_self)
      · exact (ih hes).imp_right (List.mem_cons_of_mem _)

/-- Keys ascend after an insertion if they did before. -/
theorem ascending_insert {es : List (String × α)} (h : Ascending es) (k : String) (v : α) :
    Ascending (insert k v es) := by
  induction es with
  | nil => exact List.pairwise_singleton _ _
  | cons e es ih =>
    obtain ⟨k', v'⟩ := e
    obtain ⟨hfirst, hes⟩ := List.pairwise_cons.1 h
    rw [insert]
    split
    · rename_i hlt
      refine List.pairwise_cons.2 ⟨fun e he => ?_, h⟩
      obtain rfl | he := List.mem_cons.1 he
      · exact hlt
      · exact String.lt_trans hlt (hfirst e he)
    split
    · rename_i heq
      exact List.pairwise_cons.2 ⟨fun e he => heq ▸ hfirst e he, hes⟩
    · rename_i hlt hne
      have hgt : k' < k := by
        refine Decidable.byContradiction fun hge => hne ?_
        exact String.le_antisymm (String.not_lt.1 hge) (String.not_lt.1 hlt)
      refine List.pairwise_cons.2 ⟨fun e he => ?_, ih hes⟩
      obtain rfl | he := mem_insert he
      · exact hgt
      · exact hfirst e he

/-- The entries of an object, put in one after another. -/
abbrev insertAll (es acc : List (String × α)) : List (String × α) :=
  es.foldl (fun acc e => insert e.1 e.2 acc) acc

/-- Entries that ascend are kept as they are. -/
theorem insertAll_of_ascending {es acc : List (String × α)} (h : Ascending (acc ++ es)) :
    insertAll es acc = acc ++ es := by
  induction es generalizing acc with
  | nil => rw [List.append_nil]; rfl
  | cons e es ih =>
    have hlast : ∀ e' ∈ acc, e'.1 < e.1 := fun e' he' =>
      (List.pairwise_append.1 h).2.2 e' he' e (by simp)
    rw [List.append_cons] at h ⊢
    rw [insertAll, List.foldl_cons, insert_last hlast]
    exact ih h

theorem mem_insertAll {es acc : List (String × α)} {e : String × α} (h : e ∈ insertAll es acc) :
    e ∈ es ∨ e ∈ acc := by
  induction es generalizing acc with
  | nil => exact .inr h
  | cons e' es ih =>
    obtain he | hacc := ih h
    · exact .inl (List.mem_cons_of_mem _ he)
    · obtain rfl | hacc := mem_insert hacc
      · exact .inl List.mem_cons_self
      · exact .inr hacc

theorem ascending_insertAll {acc : List (String × α)} (h : Ascending acc) (es : List (String × α)) :
    Ascending (insertAll es acc) := by
  induction es generalizing acc with
  | nil => exact h
  | cons e es ih => exact ih (ascending_insert h e.1 e.2)

end

theorem ofEntries_eq (es : List (String × Value)) : ofEntries es = .object (insertAll es []) :=
  rfl

/-! ## Decoding what was written -/

mutual

/-- The document of a value is decoded to that value. -/
theorem ofDocument_document : (v : Value) → (room : Nat) → v.depth ≤ room →
    v.isOrdered = true → ofDocument room v.document = .ok v
  | .null, _, _, _ => rfl
  | .bool _, _, _, _ => rfl
  | .int _, _, _, _ => rfl
  | .double _, _, _, _ => rfl
  | .text _, _, _, _ => rfl
  | .array vs, room, hroom, h => by
    rw [depth] at hroom
    have hitems := ofItems_documents vs (room - 1) (by omega) h
    have hpos : ¬ room = 0 := by omega
    simp only [document, ofDocument, if_neg hpos, hitems]
    rfl
  | .object es, room, hroom, h => by
    rw [depth] at hroom
    obtain ⟨hkeys, hvalues⟩ := Bool.and_eq_true_iff.1 h
    have hpairs := ofPairs_documents es (room - 1) (by omega) hvalues
    -- Keys that ascend are never put in front of others.
    have hkeep : insertAll es [] = [] ++ es := insertAll_of_ascending (of_decide_eq_true hkeys)
    have hpos : ¬ room = 0 := by omega
    simp only [document, ofDocument, if_neg hpos, hpairs]
    change Except.ok (ofEntries es) = _
    rw [ofEntries_eq, hkeep, List.nil_append]

theorem ofItems_documents : (vs : List Value) → (room : Nat) → itemsDepth vs ≤ room →
    allOrdered vs = true → ofItems room (itemDocuments vs) = .ok vs
  | [], _, _, _ => rfl
  | v :: vs, room, hroom, h => by
    rw [itemsDepth] at hroom
    obtain ⟨hv, hvs⟩ := Bool.and_eq_true_iff.1 h
    have hfirst := ofDocument_document v room (by omega) hv
    have hrest := ofItems_documents vs room (by omega) hvs
    simp only [itemDocuments, ofItems, hfirst, hrest]
    rfl

theorem ofPairs_documents : (es : List (String × Value)) → (room : Nat) →
    entriesDepth es ≤ room → allEntriesOrdered es = true →
    ofPairs room (entryDocuments es) = .ok es
  | [], _, _, _ => rfl
  | (k, v) :: es, room, hroom, h => by
    rw [entriesDepth] at hroom
    obtain ⟨hv, hes⟩ := Bool.and_eq_true_iff.1 h
    have hfirst := ofDocument_document v room (by omega) hv
    have hrest := ofPairs_documents es room (by omega) hes
    simp only [entryDocuments, ofPairs, hfirst, hrest]
    rfl

end

/-! ## What is decoded -/

/-- A value that the decoder may give: its keys ascend, and it is nested no deeper than
    there is room. -/
def Fits (room : Nat) (v : Value) : Prop :=
  v.depth ≤ room ∧ v.isOrdered = true

theorem fits_array {room : Nat} {vs : List Value} (h : ∀ v ∈ vs, v.Fits room) :
    (array vs).Fits (room + 1) := by
  have hitems : itemsDepth vs ≤ room ∧ allOrdered vs = true := by
    induction vs with
    | nil => exact ⟨Nat.zero_le room, rfl⟩
    | cons v vs ih =>
      have hv := h v List.mem_cons_self
      have hvs := ih fun v' hv' => h v' (List.mem_cons_of_mem v hv')
      exact ⟨Nat.max_le.2 ⟨hv.1, hvs.1⟩, Bool.and_eq_true_iff.2 ⟨hv.2, hvs.2⟩⟩
  exact ⟨Nat.succ_le_succ hitems.1, hitems.2⟩

theorem fits_object {room : Nat} {es : List (String × Value)} (hkeys : Ascending es)
    (h : ∀ e ∈ es, e.2.Fits room) : (object es).Fits (room + 1) := by
  have hentries : entriesDepth es ≤ room ∧ allEntriesOrdered es = true := by
    -- Depth and order of the values do not depend on the keys.
    clear hkeys
    induction es with
    | nil => exact ⟨Nat.zero_le room, rfl⟩
    | cons e es ih =>
      have hv := h e List.mem_cons_self
      have hes := ih fun e' he' => h e' (List.mem_cons_of_mem e he')
      exact ⟨Nat.max_le.2 ⟨hv.1, hes.1⟩, Bool.and_eq_true_iff.2 ⟨hv.2, hes.2⟩⟩
  exact ⟨Nat.succ_le_succ hentries.1,
    Bool.and_eq_true_iff.2 ⟨decide_eq_true hkeys, hentries.2⟩⟩

/-- A list is decoded if there is room for its items. -/
theorem ofDocument_seq {room : Nat} {ds : List Document} {closed : Bool} {v : Value}
    (h : ofDocument room (.seq ds closed) = .ok v) :
    ∃ rest vs, room = rest + 1 ∧ ofItems rest ds = .ok vs ∧ v = .array vs := by
  cases room with
  | zero => cases h
  | succ rest =>
    simp only [ofDocument, Nat.add_sub_cancel] at h
    obtain ⟨vs, hvs, hclosed⟩ := bind_eq_ok_iff.1 h
    cases closed with
    | false => cases hclosed
    | true =>
      cases hclosed
      exact ⟨rest, vs, rfl, hvs, rfl⟩

/-- A map is decoded if there is room for its entries. -/
theorem ofDocument_map {room : Nat} {ds : List (Option String × Document)} {closed : Bool}
    {v : Value} (h : ofDocument room (.map ds closed) = .ok v) :
    ∃ rest es, room = rest + 1 ∧ ofPairs rest ds = .ok es ∧ v = .object (insertAll es []) := by
  cases room with
  | zero => cases h
  | succ rest =>
    simp only [ofDocument, Nat.add_sub_cancel] at h
    obtain ⟨es, hes, hclosed⟩ := bind_eq_ok_iff.1 h
    cases closed with
    | false => cases hclosed
    | true =>
      cases hclosed
      exact ⟨rest, es, rfl, hes, rfl⟩

mutual

/-- A value that was decoded has ascending keys and is not nested too deep. -/
theorem fits_of_ofDocument : (d : Document) → {room : Nat} → {v : Value} →
    ofDocument room d = .ok v → v.Fits room
  | .null, _, _, h => Except.ok.inj h ▸ ⟨Nat.zero_le _, rfl⟩
  | .bool _, _, _, h => Except.ok.inj h ▸ ⟨Nat.zero_le _, rfl⟩
  | .int _, _, _, h => Except.ok.inj h ▸ ⟨Nat.zero_le _, rfl⟩
  | .double _, _, _, h => Except.ok.inj h ▸ ⟨Nat.zero_le _, rfl⟩
  | .text _, _, _, h => Except.ok.inj h ▸ ⟨Nat.zero_le _, rfl⟩
  | .overflow, _, _, h => nomatch h
  | .illText, _, _, h => nomatch h
  | .broken, _, _, h => nomatch h
  | .seq ds _, _, _, h => by
    obtain ⟨rest, vs, rfl, hvs, rfl⟩ := ofDocument_seq h
    exact fits_array (fits_of_ofItems ds hvs)
  | .map ds _, _, _, h => by
    obtain ⟨rest, es, rfl, hes, rfl⟩ := ofDocument_map h
    refine fits_object (ascending_insertAll .nil es) fun e he => ?_
    obtain he | he := mem_insertAll he
    · exact fits_of_ofPairs ds hes e he
    · cases he

theorem fits_of_ofItems : (ds : List Document) → {room : Nat} → {vs : List Value} →
    ofItems room ds = .ok vs → ∀ v ∈ vs, v.Fits room
  | [], _, _, h, v, hv => by
    cases h
    cases hv
  | d :: ds, _, _, h, v, hv => by
    obtain ⟨first, hfirst, h⟩ := bind_eq_ok_iff.1 h
    obtain ⟨rest, hrest, h⟩ := bind_eq_ok_iff.1 h
    cases h
    obtain rfl | hv := List.mem_cons.1 hv
    · exact fits_of_ofDocument d hfirst
    · exact fits_of_ofItems ds hrest v hv

theorem fits_of_ofPairs : (ds : List (Option String × Document)) → {room : Nat} →
    {es : List (String × Value)} → ofPairs room ds = .ok es → ∀ e ∈ es, e.2.Fits room
  | [], _, _, h, e, he => by
    cases h
    cases he
  | (none, _) :: _, _, _, h, _, _ => nomatch h
  | (some k, d) :: ds, _, _, h, e, he => by
    obtain ⟨first, hfirst, h⟩ := bind_eq_ok_iff.1 h
    obtain ⟨rest, hrest, h⟩ := bind_eq_ok_iff.1 h
    cases h
    obtain rfl | he := List.mem_cons.1 he
    · exact fits_of_ofDocument d hfirst
    · exact fits_of_ofPairs ds hrest e he

end

end Value
end Json
end PluginHost
