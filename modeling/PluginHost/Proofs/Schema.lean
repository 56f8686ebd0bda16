/-
  PluginHost.Proofs.Schema

  What a record that was read is made of.  What holds of the draft in which nothing is
  filled, and is kept whenever a field is filled, holds of the draft that the record is
  made of, whether it was read from a map or from a list.
-/
import PluginHost.Schema

namespace PluginHost

/-- What goes on after something else succeeds if both do. -/
theorem bind_eq_ok_iff {ε α β : Type} {x : Except ε α} {f : α → Except ε β} {b : β} :
    x >>= f = .ok b ↔ ∃ a, x = .ok a ∧ f a = .ok b := by
  cases x with
  | error e => simp [bind, Except.bind]
  | ok a => simp [bind, Except.bind]

theorem map_eq_ok_iff {ε α β : Type} {x : Except ε α} {f : α → β} {b : β} :
    f <$> x = .ok b ↔ ∃ a, x = .ok a ∧ f a = b := by
  cases x with
  | error e => simp [Functor.map, Except.map]
  | ok a => simp [Functor.map, Except.map]

namespace Schema
namespace Record

variable {φ δ α : Type} {r : Record φ δ α}

/-! ## Reading field by field -/

/-- A key that stands for a field which is not filled yet fills it. -/
theorem fillEntries_cons {k : String} {f : φ} {d : Document} {draft next : δ}
    (hfield : r.fieldOf k = some f) (hblank : r.filled draft f = false)
    (hfill : r.fill draft f d = .ok next) (es : List (Option String × Document)) :
    r.fillEntries draft ((some k, d) :: es) = r.fillEntries next es := by
  simp only [fillEntries, hfield, hblank, hfill]
  rfl

theorem read_map [DecidableEq φ] {es : List (Option String × Document)} {draft : δ} {a : α}
    (hfill : r.fillEntries r.blank es = .ok draft) (hfinish : r.finish draft = .ok a)
    (surplus : Surplus) : r.read surplus (.map es true) = .ok a := by
  refine bind_eq_ok_iff.2 ⟨draft, hfill, ?_⟩
  simp only [hfinish]
  rfl

/-! ## What every draft has -/

variable {P : δ → Prop}

theorem fillEntries_keeps
    (hfill : ∀ {draft f d draft'}, P draft → r.fill draft f d = .ok draft' → P draft')
    {es : List (Option String × Document)} {draft draft' : δ} (hdraft : P draft)
    (h : r.fillEntries draft es = .ok draft') : P draft' := by
  induction es generalizing draft with
  | nil => exact Except.ok.inj h ▸ hdraft
  | cons e es ih =>
    obtain ⟨k, d⟩ := e
    cases k with
    | none => cases h
    | some k =>
      rw [fillEntries] at h
      cases hfield : r.fieldOf k with
      | none =>
        simp only [hfield] at h
        obtain ⟨_, -, hrest⟩ := bind_eq_ok_iff.1 h
        exact ih hdraft hrest
      | some f =>
        simp only [hfield] at h
        split at h
        · cases h
        · obtain ⟨next, hnext, hrest⟩ := bind_eq_ok_iff.1 h
          exact ih (hfill hdraft hnext) hrest

theorem fillItems_keeps
    (hfill : ∀ {draft f d draft'}, P draft → r.fill draft f d = .ok draft' → P draft')
    {fs : List φ} {ds : List Document} {draft draft' : δ} (hdraft : P draft)
    (h : r.fillItems draft fs ds = .ok draft') : P draft' := by
  induction fs generalizing draft ds with
  | nil => exact Except.ok.inj h ▸ hdraft
  | cons f fs ih =>
    cases ds with
    | nil => exact Except.ok.inj h ▸ hdraft
    | cons d ds =>
      obtain ⟨next, hnext, hrest⟩ := bind_eq_ok_iff.1 h
      exact ih (hfill hdraft hnext) hrest

/-- A record that was read is made of a draft that was filled field by field. -/
theorem exists_draft_of_read [DecidableEq φ] (hblank : P r.blank)
    (hfill : ∀ {draft f d draft'}, P draft → r.fill draft f d = .ok draft' → P draft')
    {surplus : Surplus} {d : Document} {a : α} (h : r.read surplus d = .ok a) :
    ∃ draft, P draft ∧ r.finish draft = .ok a := by
  cases d with
  | map es closed =>
    obtain ⟨draft, hdraft, hrest⟩ := bind_eq_ok_iff.1 h
    refine ⟨draft, fillEntries_keeps hfill hblank hdraft, ?_⟩
    cases hfinish : r.finish draft with
    | error f =>
      simp only [hfinish] at hrest
      cases closed <;> cases hrest
    | ok a' =>
      simp only [hfinish] at hrest
      cases closed with
      | false => cases hrest
      | true =>
        cases hrest
        rfl
  | seq ds closed =>
    obtain ⟨draft, hdraft, hrest⟩ := bind_eq_ok_iff.1 h
    refine ⟨draft, fillItems_keeps hfill hblank hdraft, ?_⟩
    cases hfinish : r.finish draft with
    | error f =>
      simp only [hfinish] at hrest
      split at hrest <;> cases hrest
    | ok a' =>
      simp only [hfinish] at hrest
      split at hrest
      · cases hrest
      · split at hrest
        · cases hrest
        · cases hrest
          rfl
  | _ => cases h

end Record
end Schema

end PluginHost
