/-
  PluginHost.Proofs.Schema.Trees

  Documents as a text without faults leaves them: all of it was read, all of it can be
  taken as a value, and no key stands twice in a table.
-/
import Mathlib.Data.List.Nodup
import PluginHost.Document

namespace PluginHost
namespace Document

/-- A document without faults, in which the keys of a table differ.  There is no `null`
    in it. -/
inductive IsTree : Document → Prop where
  | bool (b : Bool) : IsTree (.bool b)
  | int (n : Int) : IsTree (.int n)
  | double (x : Double) : IsTree (.double x)
  | text (s : String) : IsTree (.text s)
  | seq {ds : List Document} (hitems : ∀ d ∈ ds, IsTree d) : IsTree (.seq ds true)
  | map {es : List (Option String × Document)} (hkeys : ∀ e ∈ es, e.1.isSome)
      (hdiffer : (es.map (·.1)).Nodup) (hvalues : ∀ e ∈ es, IsTree e.2) : IsTree (.map es true)

theorem table_eq (es : List (String × Document)) :
    table es = .map (es.map fun e => (some e.1, e.2)) true :=
  rfl

theorem isTree_list_iff {ds : List Document} : (list ds).IsTree ↔ ∀ d ∈ ds, d.IsTree := by
  constructor
  · intro h
    cases h with
    | seq hitems => exact hitems
  · exact IsTree.seq

theorem isTree_table_iff {es : List (String × Document)} :
    (table es).IsTree ↔ (es.map (·.1)).Nodup ∧ ∀ e ∈ es, e.2.IsTree := by
  have hnames : (es.map fun e => (some e.1, e.2)).map (·.1) = (es.map (·.1)).map some := by
    rw [List.map_map, List.map_map]
    rfl
  have hnodup : ((es.map (·.1)).map some).Nodup ↔ (es.map (·.1)).Nodup :=
    List.nodup_map_iff fun _ _ => Option.some.inj
  rw [table_eq]
  constructor
  · intro h
    cases h with
    | map _ hdiffer hvalues =>
      rw [hnames, hnodup] at hdiffer
      exact ⟨hdiffer, fun e he => hvalues _ (List.mem_map_of_mem he)⟩
  · rintro ⟨hdiffer, hvalues⟩
    refine IsTree.map ?_ ?_ ?_
    · intro e he
      obtain ⟨x, -, rfl⟩ := List.mem_map.1 he
      rfl
    · rw [hnames, hnodup]
      exact hdiffer
    · intro e he
      obtain ⟨x, hx, rfl⟩ := List.mem_map.1 he
      exact hvalues x hx

theorem allWhole_iff {ds : List Document} :
    allWhole ds = true ↔ ∀ d ∈ ds, d.isWhole = true := by
  induction ds with
  | nil => simp [allWhole]
  | cons d ds ih => rw [allWhole, Bool.and_eq_true, ih, List.forall_mem_cons]

theorem allEntriesWhole_iff {es : List (Option String × Document)} :
    allEntriesWhole es = true ↔ ∀ e ∈ es, e.2.isWhole = true := by
  induction es with
  | nil => simp [allEntriesWhole]
  | cons e es ih => rw [allEntriesWhole, Bool.and_eq_true, ih, List.forall_mem_cons]

/-- A tree can be passed over. -/
theorem IsTree.isWhole {d : Document} (h : d.IsTree) : d.isWhole = true := by
  induction h with
  | seq _ ih => rw [Document.isWhole, allWhole_iff.2 ih, Bool.and_self]
  | map _ _ _ ih => rw [Document.isWhole, allEntriesWhole_iff.2 ih, Bool.and_self]
  | _ => rfl

end Document
end PluginHost
