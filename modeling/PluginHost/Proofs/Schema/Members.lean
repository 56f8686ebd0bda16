/-
  PluginHost.Proofs.Schema.Members

  Records read from the members of a map as they stand in a text, where a name may be
  ill-formed and may stand there more than once.

    * `MemberEdit known` — the members of a map in another order, or one more member whose
      name is not among the known ones.

  A lawful record is read alike before and after such a change (`MemberEdit.alike`), and a
  member that it knows is refused the second time (`Lawful.read_of_repeated`).
-/
import Mathlib.Data.List.Count
import PluginHost.Proofs.Schema.Order

namespace PluginHost
namespace Schema

/-- A change to the members of a map that a record which knows some names may not notice. -/
inductive MemberEdit (known : List String) : Document → Document → Prop where
  /-- The members in another order. -/
  | reorder {es fs : List (Option String × Document)} (h : es.Perm fs) :
      MemberEdit known (.map es true) (.map fs true)
  /-- One more member, with another name and any value that can be read to its end. -/
  | add (before after : List (Option String × Document)) {key : String} {d : Document}
      (hkey : key ∉ known) (hd : d.isWhole = true) :
      MemberEdit known (.map (before ++ after) true) (.map (before ++ (some key, d) :: after) true)

/-- A name that stands in a list twice stands there before all others in some order of it. -/
theorem exists_perm_of_count {β : Type} {k : Option String} {es : List (Option String × β)}
    (h : 1 < (es.map (·.1)).count k) :
    ∃ d e rest, es.Perm ((k, d) :: (k, e) :: rest) := by
  have hsub : (List.replicate 2 k).Sublist (es.map (·.1)) := List.replicate_sublist_iff.2 h
  obtain ⟨twice, hsub, htwice⟩ := List.sublist_map_iff.1 hsub
  obtain ⟨rest, hperm⟩ := hsub.exists_perm_append
  obtain ⟨d, e, rfl⟩ : ∃ d e, twice = [(k, d), (k, e)] := by
    match twice, htwice with
    | [(_, d), (_, e)], htwice =>
      simp only [List.replicate, List.map_cons, List.map_nil, List.cons.injEq, and_true] at htwice
      obtain ⟨rfl, rfl⟩ := htwice
      exact ⟨d, e, rfl⟩
  exact ⟨d, e, rest, hperm⟩

namespace Record

variable {φ δ α : Type} {r : Record φ δ α} {es : List (Option String × Document)}

/-- A value may stand for another that fills its field alike. -/
theorem read_map_of_alike [DecidableEq φ] {key : String} {f : φ} {d e : Document}
    (hf : r.fieldOf key = some f) (h : ∀ draft, Alike (r.fill draft f d) (r.fill draft f e))
    (surplus : Surplus) (before after : List (Option String × Document)) :
    Alike (r.read surplus (.map (before ++ (some key, d) :: after) true))
      (r.read surplus (.map (before ++ (some key, e) :: after) true)) := by
  have hsame : ∀ draft, r.takeEntry draft (some key, d) = r.takeEntry draft (some key, e) := by
    intro draft
    have hfill := h draft
    simp only [takeEntry, Option.bind_some, take, hf]
    rw [hfill]
  rw [Alike, toOption_read_map, toOption_read_map, foldlM_middle hsame]

/-- A known member is refused the second time, wherever it stands. -/
theorem Lawful.read_of_repeated [DecidableEq φ] (h : r.Lawful) (surplus : Surplus) {key : String}
    {f : φ} (hf : r.fieldOf key = some f) (hcount : 1 < (es.map (·.1)).count (some key)) :
    (r.read surplus (.map es true)).toOption = none := by
  obtain ⟨d, e, rest, hperm⟩ := exists_perm_of_count hcount
  exact h.read_of_pair surplus (x := (key, d)) (y := (key, e)) hperm hf hf

end Record

/-- A record does not notice a change to names that it does not know. -/
theorem MemberEdit.alike {φ δ α : Type} [DecidableEq φ] {r : Record φ δ α} {known : List String}
    {d e : Document} (h : MemberEdit known d e) (hr : r.Lawful)
    (hunknown : ∀ key, key ∉ known → r.fieldOf key = none) (surplus : Surplus) :
    Alike (r.read surplus d) (r.read surplus e) := by
  cases h with
  | reorder hperm => exact hr.read_map_of_perm surplus hperm
  | add before after hkey hd =>
    have hpassed := Record.read_map_of_unknown (hunknown _ hkey) hd surplus before after
    exact hpassed.symm

end Schema
end PluginHost
