/-
  PluginHost.Proofs.NameMap

  Maps under names, read through `get?` alone: which names a map has, what stands
  under a name in a filtered map and in a map made of a list, and in which order the
  names stand.
-/
import PluginHost.NameMap

namespace PluginHost
namespace NameMap

variable {α β : Type}

/-! ## Names -/

theorem contains_eq_true_iff {m : NameMap α} {name : String} :
    m.contains name = true ↔ ∃ a, m.get? name = some a := by
  rw [contains, Option.isSome_iff_exists]

theorem contains_eq_false_iff {m : NameMap α} {name : String} :
    m.contains name = false ↔ m.get? name = none := by
  rw [contains, Option.isSome_eq_false_iff, Option.isNone_iff_eq_none]

/-- The names of a map are those under which something stands. -/
theorem mem_names_iff {m : NameMap α} {name : String} :
    name ∈ m.names ↔ ∃ a, m.get? name = some a := by
  simp only [names, List.mem_map, Prod.exists, get?_eq_some_iff]
  constructor
  · rintro ⟨n, a, hmem, rfl⟩
    exact ⟨a, hmem⟩
  · rintro ⟨a, hmem⟩
    exact ⟨name, a, hmem, rfl⟩

/-! ## Filtered maps and lists -/

/-- What stands under a name in a filtered map. -/
theorem get?_filterMap_eq_some_iff {f : String → α → Option β} {m : NameMap α} {name : String}
    {b : β} :
    (m.filterMap f).get? name = some b ↔ ∃ a, m.get? name = some a ∧ f name a = some b := by
  simp only [get?_eq_some_iff, filterMap, List.mem_filterMap, Option.map_eq_some_iff, Prod.exists,
    Prod.mk.injEq]
  constructor
  · rintro ⟨n, a, hmem, b', hf, rfl, rfl⟩
    exact ⟨a, hmem, hf⟩
  · rintro ⟨a, hmem, hf⟩
    exact ⟨name, a, hmem, b, hf, rfl, rfl⟩

/-- What is entered one after another was there before or is in the list. -/
theorem get?_foldl_insert (es : List (String × α)) (m : NameMap α) {name : String} {a : α}
    (h : (es.foldl (fun m e => m.insert e.1 e.2) m).get? name = some a) :
    m.get? name = some a ∨ (name, a) ∈ es := by
  induction es generalizing m with
  | nil => exact Or.inl h
  | cons e es ih =>
    rw [List.foldl_cons] at h
    rcases ih (m.insert e.1 e.2) h with hm | hes
    · rw [get?_insert] at hm
      by_cases hn : name = e.1
      · rw [if_pos hn] at hm
        have he : e = (name, a) := by
          rw [hn, ← Option.some.inj hm]
        exact Or.inr (he ▸ List.mem_cons_self)
      · rw [if_neg hn] at hm
        exact Or.inl hm
    · exact Or.inr (List.mem_cons_of_mem _ hes)

/-- What stands in the map of a list is in the list. -/
theorem mem_of_get?_ofList {es : List (String × α)} {name : String} {a : α}
    (h : (ofList es).get? name = some a) : (name, a) ∈ es := by
  rcases get?_foldl_insert es empty h with hm | hes
  · rw [get?_empty] at hm
    cases hm
  · exact hes

/-- Of entries of one name the last one stands in the map of a list. -/
theorem get?_ofList (es : List (String × α)) (name : String) :
    (ofList es).get? name = es.reverse.lookup name := by
  have hfold : ∀ m : NameMap α, (es.foldl (fun m e => m.insert e.1 e.2) m).get? name
      = (es.reverse.lookup name).or (m.get? name) := by
    induction es with
    | nil => exact fun m => rfl
    | cons e es ih =>
      obtain ⟨n, a⟩ := e
      intro m
      rw [List.foldl_cons, ih, get?_insert, List.reverse_cons, List.lookup_append, Option.or_assoc]
      rw [List.lookup_cons]
      by_cases hn : name = n
      · simp [hn]
      · have hne : (name == n) = false := by simpa using hn
        simp [hn, hne]
  rw [ofList, hfold, get?_empty, Option.or_none]

/-- If all entries of a name agree, their value stands in the map of a list. -/
theorem get?_ofList_of_forall_eq {es : List (String × α)} {name : String} {a : α}
    (hmem : (name, a) ∈ es) (heq : ∀ b, (name, b) ∈ es → b = a) :
    (ofList es).get? name = some a := by
  cases h : (ofList es).get? name with
  | some b => rw [heq b (mem_of_get?_ofList h)]
  | none =>
    rw [get?_ofList, List.lookup_eq_none_iff] at h
    have hne := h (name, a) (List.mem_reverse.2 hmem)
    simp at hne

/-! ## All entries -/

/-- The entries whose values are kept. -/
theorem entries_filterMap_ite (m : NameMap α) (keep : α → Bool) :
    (m.filterMap fun _ a => if keep a then some a else none).entries
      = m.entries.filter fun e => keep e.2 := by
  show m.entries.filterMap _ = _
  rw [← List.filterMap_eq_filter]
  congr 1
  funext e
  by_cases h : keep e.2 = true <;> simp [h, Option.guard]

/-- A map is made of its entries, in whichever order. -/
theorem ofList_of_perm {m : NameMap α} {es : List (String × α)} (h : es.Perm m.entries) :
    ofList es = m := by
  have hentry : ∀ {name a}, (name, a) ∈ es ↔ m.get? name = some a := by
    intro name a
    rw [h.mem_iff, get?_eq_some_iff]
  refine ext_get? fun name => ?_
  cases hm : m.get? name with
  | some a =>
    refine get?_ofList_of_forall_eq (hentry.2 hm) fun b hb => ?_
    rw [hentry, hm] at hb
    exact (Option.some.inj hb).symm
  | none =>
    cases hes : (ofList es).get? name with
    | none => rfl
    | some a =>
      have ha := hentry.1 (mem_of_get?_ofList hes)
      rw [hm] at ha
      cases ha

/-- A map without entries has nothing under any name. -/
theorem isEmpty_eq_true_iff {m : NameMap α} :
    m.isEmpty = true ↔ ∀ name, m.get? name = none := by
  rw [isEmpty, List.isEmpty_iff]
  constructor
  · intro hnil name
    rw [get?, hnil, List.lookup_nil]
  · intro hnone
    apply List.eq_nil_iff_forall_not_mem.2
    rintro ⟨name, a⟩ hmem
    have hsome := get?_eq_some_iff.2 hmem
    rw [hnone name] at hsome
    cases hsome

/-- The names of a map stand in order. -/
theorem pairwise_names (m : NameMap α) : m.names.Pairwise (· < ·) :=
  List.pairwise_map.2 m.sorted

theorem nodup_names (m : NameMap α) : m.names.Nodup := by
  refine m.pairwise_names.imp ?_
  intro a b hlt heq
  rw [heq] at hlt
  exact String.lt_irrefl _ hlt

end NameMap
end PluginHost
