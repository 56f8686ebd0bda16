/-
  PluginHost.Proofs.Schema.Order

  Records and maps do not depend on the order in which they are written.  Reading goes
  from left to right and tells the first problem only; but whether there is one, and
  what is read if there is none, is the same in every order.

    * `Alike x y` — both readings fail, or both give the same.
    * `Record.take` — what one entry of a table makes of the draft of a record;
      `Record.takeEntry` for the entries of any map.
    * `Record.Lawful` — a field that is filled is filled, and two fields are filled in
      either order.

  The entries of a map are taken one after another (`toOption_read_map`), and two of them
  may change places (`Record.Lawful.takeEntry_comm`).
-/
import Mathlib.Data.List.Nodup
import Mathlib.Data.List.Perm.Basic
import PluginHost.Proofs.NameMap
import PluginHost.Proofs.Schema
import PluginHost.Proofs.Schema.Trees

namespace PluginHost

/-! ## Readings that come to the same -/

section Alike

variable {ε α β γ : Type} {x y : Except ε α}

/-- Both fail, perhaps in different ways, or both give the same. -/
def Alike (x y : Except ε α) : Prop :=
  x.toOption = y.toOption

theorem Alike.refl (x : Except ε α) : Alike x x :=
  rfl

theorem toOption_bind (x : Except ε α) (f : α → Except ε β) :
    (x >>= f).toOption = x.toOption.bind fun a => (f a).toOption := by
  cases x <;> rfl

theorem toOption_map (f : α → β) (x : Except ε α) : (f <$> x).toOption = x.toOption.map f := by
  cases x <;> rfl

theorem toOption_eq_some_iff {a : α} : x.toOption = some a ↔ x = .ok a := by
  cases x <;> simp [Except.toOption]

theorem toOption_eq_none_iff : x.toOption = none ↔ ∃ e, x = .error e := by
  cases x <;> simp [Except.toOption]

theorem Alike.bind (h : Alike x y) (f : α → Except ε β) : Alike (x >>= f) (y >>= f) := by
  rw [Alike, toOption_bind, toOption_bind, h]

theorem Alike.map (h : Alike x y) (f : α → β) : Alike (f <$> x) (f <$> y) := by
  rw [Alike, toOption_map, toOption_map, h]

/-- It does not matter which of two readings comes first. -/
theorem alike_comm (x : Except ε α) (y : Except ε β) (f : α → β → γ) :
    Alike (x >>= fun a => y >>= fun b => .ok (f a b))
      (y >>= fun b => x >>= fun a => .ok (f a b)) := by
  cases x <;> cases y <;> rfl

end Alike

/-! ## Folds that may fail -/

section Folds

variable {α β γ : Type}

/-- Steps that may change places are taken in any order. -/
theorem foldlM_eq_of_perm {f : β → α → Option β}
    (hcomm : ∀ b x y, ((f b x).bind fun c => f c y) = (f b y).bind fun c => f c x)
    {xs ys : List α} (h : xs.Perm ys) (b : β) : xs.foldlM f b = ys.foldlM f b := by
  induction h generalizing b with
  | nil => rfl
  | cons x _ ih =>
    rw [List.foldlM_cons, List.foldlM_cons]
    exact Option.bind_congr fun c _ => ih c
  | swap x y zs =>
    simp only [List.foldlM_cons]
    rw [← bind_assoc, ← bind_assoc]
    exact congrArg (· >>= fun c => zs.foldlM f c) (hcomm b y x)
  | trans _ _ ih₁ ih₂ => exact (ih₁ b).trans (ih₂ b)

/-- One step is as good as another that always does the same. -/
theorem foldlM_middle {f : β → α → Option β} {x y : α} (h : ∀ b, f b x = f b y)
    (before after : List α) (b : β) :
    (before ++ x :: after).foldlM f b = (before ++ y :: after).foldlM f b := by
  simp only [List.foldlM_append, List.foldlM_cons, h]

/-- A step that does nothing is not missed. -/
theorem foldlM_idle {f : β → α → Option β} {x : α} (h : ∀ b, f b x = some b)
    (before after : List α) (b : β) :
    (before ++ x :: after).foldlM f b = (before ++ after).foldlM f b := by
  simp only [List.foldlM_append, List.foldlM_cons, h]
  rfl

/-- A step that cannot be taken stops all. -/
theorem foldlM_eq_none {f : β → α → Option β} {x : α} (h : ∀ b, f b x = none) {xs : List α}
    (hx : x ∈ xs) (b : β) : xs.foldlM f b = none := by
  induction xs generalizing b with
  | nil => exact absurd hx List.not_mem_nil
  | cons y ys ih =>
    -- Whether the steps before it can be taken or not, there is no result.
    rw [List.foldlM_cons, Option.bind_eq_bind, Option.bind_eq_none_iff]
    intro c hc
    cases List.mem_cons.1 hx with
    | inl heq =>
      rw [← heq, h] at hc
      cases hc
    | inr hys => exact ih hys c

theorem mapM_eq_none {f : α → Option γ} {x : α} (h : f x = none) {xs : List α} (hx : x ∈ xs) :
    xs.mapM f = none := by
  induction xs with
  | nil => exact absurd hx List.not_mem_nil
  | cons y ys ih =>
    rw [List.mapM_cons, Option.bind_eq_bind, Option.bind_eq_none_iff]
    intro c hc
    cases List.mem_cons.1 hx with
    | inl heq =>
      rw [← heq, h] at hc
      cases hc
    | inr hys =>
      rw [ih hys]
      rfl

theorem exists_mapM_of_perm {f : α → Option γ} {xs ys : List α} (h : xs.Perm ys) {as : List γ}
    (has : xs.mapM f = some as) : ∃ bs, ys.mapM f = some bs ∧ as.Perm bs := by
  induction h generalizing as with
  | nil => exact ⟨as, has, List.Perm.refl as⟩
  | cons x _ ih =>
    rw [List.mapM_cons] at has
    obtain ⟨a, ha, has⟩ := Option.bind_eq_some_iff.1 has
    obtain ⟨rest, hrest, has⟩ := Option.bind_eq_some_iff.1 has
    obtain rfl := Option.some.inj has
    obtain ⟨bs, hbs, hperm⟩ := ih hrest
    refine ⟨a :: bs, ?_, hperm.cons a⟩
    rw [List.mapM_cons, ha, hbs]
    rfl
  | swap x y zs =>
    simp only [List.mapM_cons] at has ⊢
    obtain ⟨a, ha, has⟩ := Option.bind_eq_some_iff.1 has
    obtain ⟨rest, hrest, has⟩ := Option.bind_eq_some_iff.1 has
    obtain ⟨b, hb, hrest⟩ := Option.bind_eq_some_iff.1 hrest
    obtain ⟨cs, hcs, hrest⟩ := Option.bind_eq_some_iff.1 hrest
    obtain rfl := Option.some.inj has
    obtain rfl := Option.some.inj hrest
    refine ⟨b :: a :: cs, ?_, List.Perm.swap b a cs⟩
    rw [ha, hb, hcs]
    rfl
  | trans _ _ ih₁ ih₂ =>
    obtain ⟨bs, hbs, hperm⟩ := ih₁ has
    obtain ⟨cs, hcs, hperm'⟩ := ih₂ hbs
    exact ⟨cs, hcs, hperm.trans hperm'⟩

end Folds

namespace NameMap

variable {α : Type} {as bs : List (String × α)}

/-- Entries with names that differ make the same map in every order. -/
theorem ofList_eq_of_perm (h : as.Perm bs) (hnames : (as.map (·.1)).Nodup) :
    ofList as = ofList bs := by
  refine ext_get? fun name => ?_
  -- The last entry of a name counts, but there is only one.
  have hunique : ∀ {a b : α}, (name, a) ∈ as → (name, b) ∈ as → b = a := by
    intro a b ha hb
    have heq := List.inj_on_of_nodup_map hnames hb ha rfl
    exact (Prod.mk.inj heq).2
  cases has : (ofList as).get? name with
  | some a =>
    have ha := mem_of_get?_ofList has
    refine (get?_ofList_of_forall_eq (h.mem_iff.1 ha) ?_).symm
    intro b hb
    exact hunique ha (h.mem_iff.2 hb)
  | none =>
    cases hbs : (ofList bs).get? name with
    | none => rfl
    | some b =>
      have hb := h.mem_iff.2 (mem_of_get?_ofList hbs)
      rw [get?_ofList_of_forall_eq hb fun a ha => hunique hb ha] at has
      cases has

end NameMap

namespace Schema

open Document (table)

/-! ## Maps -/

section Maps

variable {α : Type} {read : Document → Read α} {es fs before after : List (String × Document)}
  {key : String} {d e : Document}

/-- An entry of a map, with its value read. -/
def entryOf (read : Document → Read α) (e : String × Document) : Option (String × α) :=
  (read e.2).toOption.map (e.1, ·)

theorem toOption_map_table (read : Document → Read α) (es : List (String × Document)) :
    (Schema.map read (table es)).toOption = es.mapM (entryOf read) := by
  have hentries : (entries read (es.map fun e => (some e.1, e.2))).toOption
      = es.mapM (entryOf read) := by
    induction es with
    | nil => rfl
    | cons e es ih =>
      rw [List.map_cons, entries, toOption_bind, List.mapM_cons, entryOf, ← ih]
      cases read e.2 with
      | error p => rfl
      | ok a =>
        show (entries read (es.map fun e => (some e.1, e.2)) >>= fun as => _).toOption = _
        rw [toOption_bind]
        rfl
  rw [Document.table_eq, Schema.map, toOption_bind, ← hentries]
  cases entries read (es.map fun e => (some e.1, e.2)) <;> rfl

theorem names_of_mapM {as : List (String × α)} (h : es.mapM (entryOf read) = some as) :
    as.map (·.1) = es.map (·.1) := by
  induction es generalizing as with
  | nil =>
    cases h
    rfl
  | cons e es ih =>
    rw [List.mapM_cons] at h
    obtain ⟨a, ha, h⟩ := Option.bind_eq_some_iff.1 h
    obtain ⟨rest, hrest, h⟩ := Option.bind_eq_some_iff.1 h
    obtain ⟨v, -, rfl⟩ := Option.map_eq_some_iff.1 ha
    obtain rfl := Option.some.inj h
    rw [List.map_cons, List.map_cons, ih hrest]

/-- A map with names that differ is read alike in every order. -/
theorem map_alike_of_perm (read : Document → Read α) (h : es.Perm fs)
    (hkeys : (es.map (·.1)).Nodup) :
    Alike (NameMap.ofList <$> Schema.map read (table es))
      (NameMap.ofList <$> Schema.map read (table fs)) := by
  rw [Alike, toOption_map, toOption_map, toOption_map_table, toOption_map_table]
  -- If one order can be read, so can the other, and its entries are the same but for order.
  cases hes : es.mapM (entryOf read) with
  | some as =>
    obtain ⟨bs, hbs, hperm⟩ := exists_mapM_of_perm h hes
    rw [hbs, Option.map_some, Option.map_some, NameMap.ofList_eq_of_perm hperm]
    rwa [names_of_mapM hes]
  | none =>
    cases hfs : fs.mapM (entryOf read) with
    | none => rfl
    | some bs =>
      obtain ⟨as, has, -⟩ := exists_mapM_of_perm h.symm hfs
      rw [hes] at has
      cases has

/-- A value that cannot be read spoils the map. -/
theorem toOption_map_of_mem (hmem : (key, d) ∈ es) (h : (read d).toOption = none) :
    (Schema.map read (table es)).toOption = none := by
  have hentry : entryOf read (key, d) = none := by
    rw [entryOf, h, Option.map_none]
  rw [toOption_map_table, mapM_eq_none hentry hmem]

theorem map_alike_of_entry (before after : List (String × Document)) (key : String)
    (h : Alike (read d) (read e)) :
    Alike (Schema.map read (table (before ++ (key, d) :: after)))
      (Schema.map read (table (before ++ (key, e) :: after))) := by
  have hentry : entryOf read (key, d) = entryOf read (key, e) := congrArg (Option.map (key, ·)) h
  rw [Alike, toOption_map_table, toOption_map_table]
  simp only [List.mapM_append, List.mapM_cons, hentry]

end Maps

/-! ## Lists -/

section Lists

variable {α : Type} {read : Document → Read α} {d e : Document}

theorem list_alike_of_item (before after : List Document) (h : Alike (read d) (read e)) :
    Alike (Schema.list read (.list (before ++ d :: after)))
      (Schema.list read (.list (before ++ e :: after))) := by
  have hitems : Alike (items read (before ++ d :: after)) (items read (before ++ e :: after)) := by
    induction before with
    | nil =>
      rw [List.nil_append, List.nil_append, items, items]
      exact h.bind _
    | cons x xs ih =>
      rw [List.cons_append, List.cons_append, items, items, Alike, toOption_bind, toOption_bind]
      refine Option.bind_congr fun a _ => ?_
      exact ih.bind _
  exact hitems.bind _

end Lists

namespace Record

variable {φ δ α : Type} {r : Record φ δ α}

/-! ## Entries one after another -/

/-- What an entry of a table makes of a draft. -/
def take (r : Record φ δ α) (draft : δ) (e : String × Document) : Option δ :=
  match r.fieldOf e.1 with
  | none => if e.2.isWhole then some draft else none
  | some f => if r.filled draft f then none else (r.fill draft f e.2).toOption

/-- What an entry of a map makes of a draft.  It is refused if its key is no text. -/
def takeEntry (r : Record φ δ α) (draft : δ) (e : Option String × Document) : Option δ :=
  e.1.bind fun key => r.take draft (key, e.2)

theorem toOption_fillEntries (r : Record φ δ α) (draft : δ)
    (es : List (Option String × Document)) :
    (r.fillEntries draft es).toOption = es.foldlM r.takeEntry draft := by
  induction es generalizing draft with
  | nil => rfl
  | cons e es ih =>
    obtain ⟨key, d⟩ := e
    cases key with
    | none => rfl
    | some key =>
      rw [fillEntries, List.foldlM_cons, takeEntry, Option.bind_some, take]
      cases r.fieldOf key with
      | none =>
        simp only [skip]
        cases d.isWhole with
        | false => rfl
        | true => exact ih draft
      | some f =>
        dsimp only
        cases r.filled draft f with
        | true => rfl
        | false =>
          rw [if_neg Bool.false_ne_true, if_neg Bool.false_ne_true, toOption_bind]
          exact Option.bind_congr fun next _ => ih next

/-- A record in a map is made of all its entries. -/
theorem toOption_read_map [DecidableEq φ] (r : Record φ δ α) (surplus : Surplus)
    (es : List (Option String × Document)) :
    (r.read surplus (.map es true)).toOption
      = (es.foldlM r.takeEntry r.blank).bind fun draft => (r.finish draft).toOption := by
  rw [read, toOption_bind, toOption_fillEntries]
  refine Option.bind_congr fun draft _ => ?_
  cases r.finish draft <;> rfl

theorem toOption_read_table [DecidableEq φ] (r : Record φ δ α) (surplus : Surplus)
    (es : List (String × Document)) :
    (r.read surplus (table es)).toOption
      = (es.foldlM r.take r.blank).bind fun draft => (r.finish draft).toOption := by
  rw [Document.table_eq, toOption_read_map, List.foldlM_map]
  rfl

/-- A field that cannot be filled spoils the record. -/
theorem read_map_of_mem [DecidableEq φ] (surplus : Surplus)
    {es : List (Option String × Document)} {key : String} {d : Document} {f : φ}
    (hmem : (some key, d) ∈ es) (hf : r.fieldOf key = some f)
    (h : ∀ draft, (r.fill draft f d).toOption = none) :
    (r.read surplus (.map es true)).toOption = none := by
  have hstuck : ∀ draft, r.takeEntry draft (some key, d) = none := by
    intro draft
    simp only [takeEntry, Option.bind_some, take, hf, h, ite_self]
  rw [toOption_read_map, foldlM_eq_none hstuck hmem]
  rfl

theorem toOption_read_of_mem [DecidableEq φ] (surplus : Surplus) {es : List (String × Document)}
    {key : String} {d : Document} {f : φ} (hmem : (key, d) ∈ es) (hf : r.fieldOf key = some f)
    (h : ∀ draft, (r.fill draft f d).toOption = none) :
    (r.read surplus (table es)).toOption = none :=
  read_map_of_mem surplus (List.mem_map_of_mem hmem) hf h

/-- Two fields are filled in either order, and each of them once. -/
structure Lawful (r : Record φ δ α) : Prop where
  filled_fill : ∀ {draft draft' : δ} {f : φ} {d : Document}, r.fill draft f d = .ok draft' →
    ∀ g, r.filled draft' g = true ↔ g = f ∨ r.filled draft g = true
  fill_comm : ∀ {f g : φ}, f ≠ g → ∀ (draft : δ) (d e : Document),
    Alike (r.fill draft f d >>= fun next => r.fill next g e)
      (r.fill draft g e >>= fun next => r.fill next f d)

/-- A field that was filled takes no second value. -/
theorem Lawful.take_twice (h : r.Lawful) {f : φ} {x y : String × Document}
    (hx : r.fieldOf x.1 = some f) (hy : r.fieldOf y.1 = some f) (draft : δ) :
    ((r.take draft x).bind fun next => r.take next y) = none := by
  rw [Option.bind_eq_none_iff]
  intro next hnext
  simp only [take, hx] at hnext
  split at hnext
  · cases hnext
  · have hfilled := (h.filled_fill (toOption_eq_some_iff.1 hnext) f).2 (.inl rfl)
    simp only [take, hy, hfilled, if_true]

theorem Lawful.take_then (h : r.Lawful) {f g : φ} (hne : f ≠ g) {x y : String × Document}
    (hx : r.fieldOf x.1 = some f) (hy : r.fieldOf y.1 = some g) (draft : δ) :
    ((r.take draft x).bind fun next => r.take next y)
      = if r.filled draft f || r.filled draft g then none
        else (r.fill draft f x.2 >>= fun next => r.fill next g y.2).toOption := by
  simp only [take, hx, hy]
  -- If one of the fields is filled already, an entry is refused, sooner or later.
  cases hf : r.filled draft f with
  | true => rfl
  | false =>
    rw [if_neg Bool.false_ne_true, Bool.false_or, toOption_bind]
    cases hfill : r.fill draft f x.2 with
    | error p => cases r.filled draft g <;> rfl
    | ok next =>
      -- Filling one field leaves the other as it is.
      have hsame : r.filled next g = r.filled draft g := by
        rw [Bool.eq_iff_iff, h.filled_fill hfill g]
        exact or_iff_right hne.symm
      simp only [Except.toOption, Option.bind_some, hsame]

/-- An unknown key is passed over, before another entry or after it. -/
theorem take_comm_of_unknown {x : String × Document} (hx : r.fieldOf x.1 = none) (draft : δ)
    (y : String × Document) :
    ((r.take draft x).bind fun next => r.take next y)
      = (r.take draft y).bind fun next => r.take next x := by
  have hpass : ∀ next, r.take next x = if x.2.isWhole then some next else none := by
    intro next
    simp only [take, hx]
  simp only [hpass]
  cases x.2.isWhole with
  | false =>
    show none = (r.take draft y).bind fun _ => none
    exact (Option.bind_fun_none _).symm
  | true =>
    show r.take draft y = (r.take draft y).bind some
    exact (Option.bind_fun_some _).symm

theorem Lawful.take_comm (h : r.Lawful) (draft : δ) (x y : String × Document) :
    ((r.take draft x).bind fun next => r.take next y)
      = (r.take draft y).bind fun next => r.take next x := by
  cases hx : r.fieldOf x.1 with
  | none => exact take_comm_of_unknown hx draft y
  | some f =>
    cases hy : r.fieldOf y.1 with
    | none => exact (take_comm_of_unknown hy draft x).symm
    | some g =>
      by_cases hfg : f = g
      · subst hfg
        rw [h.take_twice hx hy, h.take_twice hy hx]
      · rw [h.take_then hfg hx hy, h.take_then (Ne.symm hfg) hy hx, Bool.or_comm]
        split
        · rfl
        · exact h.fill_comm hfg draft x.2 y.2

/-- Two entries may change places, whatever their keys are. -/
theorem Lawful.takeEntry_comm (h : r.Lawful) (draft : δ) (x y : Option String × Document) :
    ((r.takeEntry draft x).bind fun next => r.takeEntry next y)
      = (r.takeEntry draft y).bind fun next => r.takeEntry next x := by
  obtain ⟨_ | j, d⟩ := x
  · exact (Option.bind_fun_none _).symm
  obtain ⟨_ | k, e⟩ := y
  · exact Option.bind_fun_none _
  · exact h.take_comm draft (j, d) (k, e)

/-- A record is read alike in every order. -/
theorem Lawful.read_map_of_perm [DecidableEq φ] (h : r.Lawful) (surplus : Surplus)
    {es fs : List (Option String × Document)} (hperm : es.Perm fs) :
    Alike (r.read surplus (.map es true)) (r.read surplus (.map fs true)) := by
  rw [Alike, toOption_read_map, toOption_read_map, foldlM_eq_of_perm h.takeEntry_comm hperm]

theorem Lawful.read_alike_of_perm [DecidableEq φ] (h : r.Lawful) (surplus : Surplus)
    {es fs : List (String × Document)} (hperm : es.Perm fs) :
    Alike (r.read surplus (table es)) (r.read surplus (table fs)) :=
  h.read_map_of_perm surplus (hperm.map _)

/-- Two entries that stand for one field are refused, wherever they stand. -/
theorem Lawful.read_of_pair [DecidableEq φ] (h : r.Lawful) (surplus : Surplus)
    {es rest : List (Option String × Document)} {f : φ} {x y : String × Document}
    (hperm : es.Perm ((some x.1, x.2) :: (some y.1, y.2) :: rest)) (hx : r.fieldOf x.1 = some f)
    (hy : r.fieldOf y.1 = some f) : (r.read surplus (.map es true)).toOption = none := by
  have hrefused : ((r.takeEntry r.blank (some x.1, x.2)).bind fun next =>
      r.takeEntry next (some y.1, y.2)) = none := h.take_twice hx hy r.blank
  rw [toOption_read_map, foldlM_eq_of_perm h.takeEntry_comm hperm]
  simp only [List.foldlM_cons]
  rw [← bind_assoc, Option.bind_eq_bind, hrefused]
  rfl

theorem Lawful.read_of_both [DecidableEq φ] (h : r.Lawful) (surplus : Surplus)
    {es : List (String × Document)} {f : φ} {x y : String × Document} (hx : x ∈ es) (hy : y ∈ es)
    (hne : x ≠ y) (hxf : r.fieldOf x.1 = some f) (hyf : r.fieldOf y.1 = some f) :
    (r.read surplus (table es)).toOption = none := by
  obtain ⟨before, after, rfl⟩ := List.append_of_mem hx
  have hrest : y ∈ before ++ after := by
    have hmem := List.mem_append.1 hy
    rw [List.mem_cons, or_left_comm] at hmem
    exact List.mem_append.2 (hmem.resolve_left hne.symm)
  obtain ⟨front, back, hsplit⟩ := List.append_of_mem hrest
  -- Both of them may as well stand in front.
  have hperm : (before ++ x :: after).Perm (x :: y :: (front ++ back)) := by
    refine List.perm_middle.trans (.cons x ?_)
    rw [hsplit]
    exact List.perm_middle
  exact h.read_of_pair surplus (hperm.map _) hxf hyf

/-! ## One entry for another -/

theorem read_alike_of_take [DecidableEq φ] {x y : String × Document}
    (h : ∀ draft, r.take draft x = r.take draft y) (surplus : Surplus)
    (before after : List (String × Document)) :
    Alike (r.read surplus (table (before ++ x :: after)))
      (r.read surplus (table (before ++ y :: after))) := by
  rw [Alike, toOption_read_table, toOption_read_table, foldlM_middle h]

/-- A key that stands for no field may be left out, whatever stands there. -/
theorem read_map_of_unknown [DecidableEq φ] {key : String} {d : Document}
    (hkey : r.fieldOf key = none) (hwhole : d.isWhole = true) (surplus : Surplus)
    (before after : List (Option String × Document)) :
    Alike (r.read surplus (.map (before ++ (some key, d) :: after) true))
      (r.read surplus (.map (before ++ after) true)) := by
  have hidle : ∀ draft, r.takeEntry draft (some key, d) = some draft := by
    intro draft
    simp only [takeEntry, Option.bind_some, take, hkey, hwhole, if_true]
  rw [Alike, toOption_read_map, toOption_read_map, foldlM_idle hidle]

theorem read_alike_of_unknown [DecidableEq φ] {key : String} {d : Document}
    (hkey : r.fieldOf key = none) (hwhole : d.isWhole = true) (surplus : Surplus)
    (before after : List (String × Document)) :
    Alike (r.read surplus (table (before ++ (key, d) :: after)))
      (r.read surplus (table (before ++ after))) := by
  rw [Document.table_eq, Document.table_eq, List.map_append, List.map_append, List.map_cons]
  exact read_map_of_unknown hkey hwhole surplus _ _

/-- Values that are read alike may stand for one another. -/
theorem take_eq_of_alike {key : String} {d e : Document} (hd : d.isWhole = e.isWhole)
    (h : ∀ f draft, r.fieldOf key = some f → Alike (r.fill draft f d) (r.fill draft f e))
    (draft : δ) : r.take draft (key, d) = r.take draft (key, e) := by
  simp only [take]
  cases hkey : r.fieldOf key with
  | none => simp only [hd]
  | some f =>
    have hfill := h f draft hkey
    simp only
    rw [hfill]

/-- So they may as items of a list that stands for the record. -/
theorem read_alike_of_item [DecidableEq φ] {d e : Document}
    (h : ∀ f draft, Alike (r.fill draft f d) (r.fill draft f e))
    (before after : List Document) :
    Alike (r.read .ignored (.list (before ++ d :: after)))
      (r.read .ignored (.list (before ++ e :: after))) := by
  have hitems : ∀ fs draft, Alike (r.fillItems draft fs (before ++ d :: after))
      (r.fillItems draft fs (before ++ e :: after)) := by
    induction before with
    | nil =>
      intro fs draft
      cases fs with
      | nil => exact Alike.refl _
      | cons f fs =>
        rw [List.nil_append, List.nil_append, fillItems, fillItems]
        exact (h f draft).bind _
    | cons x xs ih =>
      intro fs draft
      cases fs with
      | nil => exact Alike.refl _
      | cons f fs =>
        rw [List.cons_append, List.cons_append, fillItems, fillItems, Alike, toOption_bind,
          toOption_bind]
        exact Option.bind_congr fun next _ => ih fs next
  have hlength : (before ++ d :: after).length = (before ++ e :: after).length := by
    simp only [List.length_append, List.length_cons]
  rw [Document.list, Document.list, read, read, hlength]
  exact (hitems r.fields r.blank).bind _

end Record
end Schema

end PluginHost
