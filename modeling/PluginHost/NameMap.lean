/-
  PluginHost.NameMap

  Values under names, kept in the order of the names.  There is one map for each
  set of entries: two maps with the same value under every name are equal
  (`NameMap.ext_get?`).
-/

namespace PluginHost

/-- Values under names.  The entries stand in strictly ascending order of their
    names, which are compared character by character. -/
structure NameMap (α : Type) where
  entries : List (String × α)
  sorted : entries.Pairwise fun a b => a.1 < b.1

namespace NameMap

variable {α β : Type}

/-! ## Operations -/

/-- The map without entries. -/
def empty : NameMap α :=
  ⟨[], .nil⟩

instance : EmptyCollection (NameMap α) :=
  ⟨empty⟩

instance : Inhabited (NameMap α) :=
  ⟨empty⟩

/-- The value under a name. -/
def get? (m : NameMap α) (name : String) : Option α :=
  m.entries.lookup name

/-- Whether there is a value under a name. -/
def contains (m : NameMap α) (name : String) : Bool :=
  (m.get? name).isSome

/-- The names in order. -/
def names (m : NameMap α) : List String :=
  m.entries.map (·.1)

/-- The number of entries. -/
def size (m : NameMap α) : Nat :=
  m.entries.length

/-- Whether there is no entry. -/
def isEmpty (m : NameMap α) : Bool :=
  m.entries.isEmpty

/-- Entries in order with one more at its place; an entry of the same name gives
    way to it. -/
def insertEntry (name : String) (a : α) : List (String × α) → List (String × α)
  | [] => [(name, a)]
  | e :: es =>
    if name < e.1 then (name, a) :: e :: es
    else if name = e.1 then (name, a) :: es
    else e :: insertEntry name a es

theorem mem_insertEntry {name : String} {a : α} {es : List (String × α)} {x : String × α}
    (h : x ∈ insertEntry name a es) : x = (name, a) ∨ x ∈ es := by
  induction es with
  | nil => simpa [insertEntry] using h
  | cons e es ih => grind [insertEntry]

theorem insertEntry_sorted (name : String) (a : α) {es : List (String × α)}
    (h : es.Pairwise fun a b => a.1 < b.1) :
    (insertEntry name a es).Pairwise fun a b => a.1 < b.1 := by
  induction es with
  | nil => simp [insertEntry]
  | cons e es ih =>
    have trans {a b c : String} : a < b → b < c → a < c := String.lt_trans
    have total (a b : String) : a < b ∨ a = b ∨ b < a := Std.lt_trichotomy a b
    have hs := List.pairwise_cons.1 h
    unfold insertEntry
    split
    · rename_i hlt
      refine List.pairwise_cons.2 ⟨fun x hx => ?_, h⟩
      cases List.mem_cons.1 hx with
      | inl he => exact he ▸ hlt
      | inr hm => exact trans hlt (hs.1 x hm)
    split
    · rename_i heq
      exact List.pairwise_cons.2 ⟨fun x hx => heq ▸ hs.1 x hx, hs.2⟩
    · refine List.pairwise_cons.2 ⟨fun x hx => ?_, ih hs.2⟩
      cases mem_insertEntry hx <;> grind

/-- The map with a value under a name, in place of one that stood there. -/
def insert (m : NameMap α) (name : String) (a : α) : NameMap α :=
  ⟨insertEntry name a m.entries, insertEntry_sorted name a m.sorted⟩

/-- The map without the entry of a name. -/
def erase (m : NameMap α) (name : String) : NameMap α :=
  ⟨m.entries.filter (·.1 ≠ name), m.sorted.filter _⟩

/-- The map of a list of entries; of entries with one name the last counts. -/
def ofList (es : List (String × α)) : NameMap α :=
  es.foldl (fun m e => m.insert e.1 e.2) empty

/-- The entries for which there is a new value, with it. -/
def filterMap (f : String → α → Option β) (m : NameMap α) : NameMap β where
  entries := m.entries.filterMap fun e => (f e.1 e.2).map (e.1, ·)
  sorted := by
    refine List.pairwise_filterMap.2 (m.sorted.imp ?_)
    intro a b hab x hx y hy
    simp only [Option.map_eq_some_iff] at hx hy
    obtain ⟨_, _, rfl⟩ := hx
    obtain ⟨_, _, rfl⟩ := hy
    exact hab

/-- The map with every value replaced. -/
def map (f : α → β) (m : NameMap α) : NameMap β :=
  m.filterMap fun _ a => some (f a)

/-! ## What stands under a name -/

@[simp] theorem get?_empty (name : String) : (empty : NameMap α).get? name = none :=
  rfl

/-- What stands in sorted entries after an insertion. -/
theorem lookup_insertEntry (name other : String) (a : α) (es : List (String × α)) :
    (insertEntry name a es).lookup other = if other = name then some a else es.lookup other := by
  induction es with
  | nil => grind [insertEntry]
  | cons e es ih => grind [insertEntry]

theorem get?_insert (m : NameMap α) (name other : String) (a : α) :
    (m.insert name a).get? other = if other = name then some a else m.get? other :=
  lookup_insertEntry name other a m.entries

theorem get?_erase (m : NameMap α) (name other : String) :
    (m.erase name).get? other = if other = name then none else m.get? other := by
  obtain ⟨es, hs⟩ := m
  simp only [get?, erase]
  clear hs
  induction es with
  | nil => simp
  | cons e es ih => grind

/-- An entry is what stands under its name. -/
theorem get?_eq_some_iff {m : NameMap α} {name : String} {a : α} :
    m.get? name = some a ↔ (name, a) ∈ m.entries := by
  obtain ⟨es, hs⟩ := m
  simp only [get?]
  induction es with
  | nil => simp
  | cons e es ih =>
    have irrefl (s : String) : ¬ s < s := String.lt_irrefl s
    have hs := List.pairwise_cons.1 hs
    grind

/-- Sorted lists with the same entries are equal. -/
theorem eq_of_sorted : {es fs : List (String × α)} →
    es.Pairwise (fun a b => a.1 < b.1) → fs.Pairwise (fun a b => a.1 < b.1) →
    (∀ x, x ∈ es ↔ x ∈ fs) → es = fs
  | [], [], _, _, _ => rfl
  | [], f :: _, _, _, h => by simpa using h f
  | e :: _, [], _, _, h => by simpa using h e
  | e :: es, f :: fs, he, hf, h => by
    have trans {a b c : String} : a < b → b < c → a < c := String.lt_trans
    have irrefl (s : String) : ¬ s < s := String.lt_irrefl s
    have he' := List.pairwise_cons.1 he
    have hf' := List.pairwise_cons.1 hf
    have hef : e = f := by
      have h1 := (h e).1 List.mem_cons_self
      have h2 := (h f).2 List.mem_cons_self
      cases List.mem_cons.1 h1 with
      | inl heq => exact heq
      | inr hm =>
        cases List.mem_cons.1 h2 with
        | inl heq => exact heq.symm
        | inr hm' => exact absurd (trans (hf'.1 e hm) (he'.1 f hm')) (irrefl _)
    subst hef
    have tails : es = fs := eq_of_sorted he'.2 hf'.2 fun x => by
      have hx := h x
      constructor
      · intro hm
        cases List.mem_cons.1 (hx.1 (List.mem_cons_of_mem _ hm)) with
        | inl heq => exact absurd (heq ▸ he'.1 x hm) (irrefl _)
        | inr h => exact h
      · intro hm
        cases List.mem_cons.1 (hx.2 (List.mem_cons_of_mem _ hm)) with
        | inl heq => exact absurd (heq ▸ hf'.1 x hm) (irrefl _)
        | inr h => exact h
    rw [tails]

/-- Maps with the same value under every name are equal. -/
theorem ext_get? {m n : NameMap α} (h : ∀ name, m.get? name = n.get? name) : m = n := by
  have hmem : ∀ x, x ∈ m.entries ↔ x ∈ n.entries := fun x => by
    rw [← get?_eq_some_iff (m := m), ← get?_eq_some_iff (m := n), h]
  obtain ⟨es, hs⟩ := m
  obtain ⟨fs, ht⟩ := n
  obtain rfl : es = fs := eq_of_sorted hs ht hmem
  rfl

end NameMap

end PluginHost
