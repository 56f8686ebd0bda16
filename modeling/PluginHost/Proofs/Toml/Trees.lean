/-
  PluginHost.Proofs.Toml.Trees

  The document of a TOML text is a tree: the tables under way never hold a key twice,
  and neither does what they become.

    * `Entries.Sound es` — the keys of a table differ, and what stands under them makes
      trees.
    * `Under k inner made es es'` — a table is changed by a change under one of its keys.
    * `Build.Sound b` — so it is with the closed tables and with the open one, and the
      place to which its header points is free.

  That the place is free was found when the header was read; the table is put there only
  when the next header is, or the end of the text.
-/
import PluginHost.Proofs.Schema.Trees
import PluginHost.Toml.Reader

namespace PluginHost
namespace Toml

open Document (IsTree)

/-! ## Tables under way -/

namespace Entries

variable {es es' inner : Entries} {k name : String} {ks path : List String} {n : Node}

theorem documents_eq (es : Entries) :
    documents es = es.map fun e => (some e.1, nodeDocument e.2) := by
  induction es with
  | nil => rfl
  | cons e es ih => rw [documents, ih, List.map_cons]

theorem elementDocuments_eq (elements : List Entries) :
    elementDocuments elements = elements.map toDocument := by
  induction elements with
  | nil => rfl
  | cons es elements ih => rw [elementDocuments, ih, List.map_cons, toDocument]

/-- The keys differ, and what stands under them makes trees. -/
structure Sound (es : Entries) : Prop where
  differ : (es.map (·.1)).Nodup
  trees : ∀ e ∈ es, (nodeDocument e.2).IsTree

theorem sound_nil : Sound [] :=
  ⟨List.nodup_nil, fun _ he => absurd he List.not_mem_nil⟩

theorem isTree_toDocument_iff : (toDocument es).IsTree ↔ es.Sound := by
  have htable : toDocument es = .table (es.map fun e => (e.1, nodeDocument e.2)) := by
    rw [toDocument, documents_eq, Document.table, List.map_map]
    rfl
  rw [htable, Document.isTree_table_iff, List.map_map, List.forall_mem_map]
  exact ⟨fun h => ⟨h.1, h.2⟩, fun h => ⟨h.differ, h.trees⟩⟩

theorem isTree_table {origin : Origin} : (nodeDocument (.table origin es)).IsTree ↔ es.Sound := by
  rw [nodeDocument]
  exact isTree_toDocument_iff

theorem isTree_tables {elements : List Entries} :
    (nodeDocument (.tables elements)).IsTree ↔ ∀ es ∈ elements, es.Sound := by
  rw [nodeDocument, elementDocuments_eq]
  refine Document.isTree_list_iff.trans ?_
  rw [List.forall_mem_map]
  exact forall₂_congr fun es _ => isTree_toDocument_iff

/-! ### What stands under a key -/

theorem mem_of_node? (h : es.node? k = some n) : (k, n) ∈ es := by
  induction es with
  | nil => cases h
  | cons e es ih =>
    obtain ⟨key, m⟩ := e
    rw [node?, List.lookup_cons] at h
    split at h
    · rename_i heq
      obtain rfl := eq_of_beq heq
      obtain rfl := Option.some.inj h
      exact List.mem_cons_self
    · exact List.mem_cons_of_mem _ (ih h)

theorem node?_eq_none_iff : es.node? k = none ↔ k ∉ es.map (·.1) := by
  rw [node?, List.lookup_eq_none_iff, List.mem_map]
  constructor
  · rintro h ⟨e, he, rfl⟩
    exact absurd (beq_self_eq_true e.1) (by simpa using h e he)
  · intro h e he
    simp only [bne_iff_ne, ne_eq]
    intro heq
    exact h ⟨e, he, heq.symm⟩

theorem Sound.node (h : es.Sound) (hn : es.node? k = some n) : (nodeDocument n).IsTree :=
  h.trees _ (mem_of_node? hn)

theorem node?_put (h : es.node? k = none) : (es.put k n).node? k = some n := by
  rw [node?] at h
  rw [node?, put, List.append_eq, List.lookup_append, h, Option.none_or, List.lookup_cons,
    beq_self_eq_true]

theorem node?_set {m : Node} (h : es.node? k = some m) : (es.set k n).node? k = some n := by
  induction es with
  | nil => cases h
  | cons e es ih =>
    rw [set, List.map_cons]
    by_cases heq : e.1 = k
    · rw [if_pos heq, node?, List.lookup_cons, beq_self_eq_true]
    · have hne : (k == e.1) = false := beq_eq_false_iff_ne.2 (Ne.symm heq)
      rw [if_neg heq, node?, List.lookup_cons, hne]
      rw [node?, List.lookup_cons, hne] at h
      exact ih h

theorem node?_without : (es.without k).node? k = none := by
  rw [node?_eq_none_iff, List.mem_map]
  rintro ⟨e, he, heq⟩
  have hne := (List.mem_filter.1 he).2
  exact of_decide_eq_true hne heq

/-! ### Entries that are added or changed -/

theorem Sound.put (h : es.Sound) (hfree : es.node? k = none) (hn : (nodeDocument n).IsTree) :
    (es.put k n).Sound := by
  have hput : es.put k n = es ++ [(k, n)] := rfl
  constructor
  · rw [hput, List.map_append, List.nodup_append]
    refine ⟨h.differ, List.nodup_singleton k, ?_⟩
    rintro a ha b hb rfl
    obtain rfl := List.mem_singleton.1 hb
    exact node?_eq_none_iff.1 hfree ha
  · intro e he
    rw [hput] at he
    cases List.mem_append.1 he with
    | inl hold => exact h.trees e hold
    | inr hnew =>
      obtain rfl := List.mem_singleton.1 hnew
      exact hn

theorem Sound.set (h : es.Sound) (hn : (nodeDocument n).IsTree) : (es.set k n).Sound := by
  constructor
  · have hkeys : (es.set k n).map (·.1) = es.map (·.1) := by
      rw [Entries.set, List.map_map]
      refine List.map_congr_left fun e _ => ?_
      show (if e.1 = k then (k, n) else e).1 = e.1
      split
      · rename_i heq
        exact heq.symm
      · rfl
    rw [hkeys]
    exact h.differ
  · intro e he
    obtain ⟨x, hx, rfl⟩ := List.mem_map.1 he
    split
    · exact hn
    · exact h.trees x hx

theorem Sound.without (h : es.Sound) : (es.without k).Sound :=
  ⟨h.differ.sublist (List.filter_sublist.map _), fun e he => h.trees e (List.mem_filter.1 he).1⟩

theorem exists_of_changeLast {α : Type} {f : α → Option α} {as bs : List α}
    (h : changeLast f as = some bs) :
    ∃ front a b, as = front ++ [a] ∧ f a = some b ∧ bs = front ++ [b] := by
  induction as generalizing bs with
  | nil => cases h
  | cons a as ih =>
    cases as with
    | nil =>
      obtain ⟨b, hb, rfl⟩ := Option.map_eq_some_iff.1 h
      exact ⟨[], a, b, rfl, hb, rfl⟩
    | cons a' as =>
      obtain ⟨cs, hcs, rfl⟩ := Option.map_eq_some_iff.1 h
      obtain ⟨front, x, y, hsplit, hxy, rfl⟩ := ih hcs
      exact ⟨a :: front, x, y, by rw [hsplit, List.cons_append], hxy, rfl⟩

/-! ### One key further down -/

/-- The second table is the first one with a table made of another one under a key.  What
    is not there yet is begun without entries, and of an array of tables the last one is
    meant. -/
inductive Under (k : String) (inner made : Entries) : Entries → Entries → Prop where
  | begun {es : Entries} (origin : Origin) (hnone : es.node? k = none) (hempty : inner = []) :
      Under k inner made es (es.put k (.table origin made))
  | table {es : Entries} {origin : Origin} (hnode : es.node? k = some (.table origin inner)) :
      Under k inner made es (es.set k (.table origin made))
  | last {es : Entries} {front : List Entries}
      (hnode : es.node? k = some (.tables (front ++ [inner]))) :
      Under k inner made es (es.set k (.tables (front ++ [made])))

section Under

variable {made : Entries}

theorem Under.sound_inner (h : Under k inner made es es') (hes : es.Sound) : inner.Sound := by
  cases h with
  | begun _ _ hempty =>
    rw [hempty]
    exact sound_nil
  | table hnode => exact isTree_table.1 (hes.node hnode)
  | last hnode => exact isTree_tables.1 (hes.node hnode) inner (by simp)

theorem Under.sound (h : Under k inner made es es') (hes : es.Sound) (hmade : made.Sound) :
    es'.Sound := by
  cases h with
  | begun _ hnone => exact hes.put hnone (isTree_table.2 hmade)
  | table => exact hes.set (isTree_table.2 hmade)
  | last hnode =>
    have hfront := (List.forall_mem_append.1 (isTree_tables.1 (hes.node hnode))).1
    refine hes.set (isTree_tables.2 (List.forall_mem_append.2 ⟨hfront, ?_⟩))
    exact List.forall_mem_singleton.2 hmade

theorem Under.lookAt_before (h : Under k inner made es es') (ks : List String) :
    lookAt (k :: ks) es = lookAt ks inner ∨ inner = [] := by
  cases h with
  | begun _ _ hempty => exact .inr hempty
  | table hnode =>
    left
    rw [lookAt, hnode]
  | last hnode =>
    left
    rw [lookAt, hnode]
    simp only [List.getLast?_concat]
    rfl

theorem Under.lookAt_after (h : Under k inner made es es') (ks : List String) :
    lookAt (k :: ks) es' = lookAt ks made := by
  cases h with
  | begun _ hnone => rw [lookAt, node?_put hnone]
  | table hnode => rw [lookAt, node?_set hnode]
  | last hnode =>
    rw [lookAt, node?_set hnode]
    simp only [List.getLast?_concat]
    rfl

theorem exists_under_of_changeAt {f : Entries → Option Entries}
    (h : changeAt f (k :: ks) es = some es') :
    ∃ inner made, changeAt f ks inner = some made ∧ Under k inner made es es' := by
  rw [changeAt] at h
  split at h
  · rename_i hnone
    obtain ⟨made, hmade, hes⟩ := Option.bind_eq_some_iff.1 h
    obtain rfl := Option.some.inj hes
    exact ⟨[], made, hmade, .begun _ hnone rfl⟩
  · cases h
  · rename_i origin inner hnode
    obtain ⟨made, hmade, hes⟩ := Option.bind_eq_some_iff.1 h
    obtain rfl := Option.some.inj hes
    exact ⟨inner, made, hmade, .table hnode⟩
  · rename_i elements hnode
    obtain ⟨elements', helements, hes⟩ := Option.bind_eq_some_iff.1 h
    obtain rfl := Option.some.inj hes
    obtain ⟨front, inner, made, rfl, hmade, rfl⟩ := exists_of_changeLast helements
    exact ⟨inner, made, hmade, .last hnode⟩

theorem exists_under_of_putValue {d : Document} (h : putValue name d (k :: ks) es = some es') :
    ∃ inner made, putValue name d ks inner = some made ∧ Under k inner made es es' := by
  rw [putValue] at h
  split at h
  · rename_i hnone
    obtain ⟨made, hmade, hes⟩ := Option.bind_eq_some_iff.1 h
    obtain rfl := Option.some.inj hes
    exact ⟨[], made, hmade, .begun _ hnone rfl⟩
  · cases h
  · rename_i origin inner hnode
    obtain ⟨-, h⟩ := Option.ite_none_left_eq_some.1 h
    obtain ⟨made, hmade, hes⟩ := Option.bind_eq_some_iff.1 h
    obtain rfl := Option.some.inj hes
    exact ⟨inner, made, hmade, .table hnode⟩
  · rename_i elements hnode
    obtain ⟨-, h⟩ := Option.ite_none_left_eq_some.1 h
    obtain ⟨elements', helements, hes⟩ := Option.bind_eq_some_iff.1 h
    obtain rfl := Option.some.inj hes
    obtain ⟨front, inner, made, rfl, hmade, rfl⟩ := exists_of_changeLast helements
    exact ⟨inner, made, hmade, .last hnode⟩

end Under

/-! ### Changes at the end of a path -/

theorem eq_nil_of_lookAt_nil (h : lookAt ks [] = some inner) : inner = [] := by
  cases ks with
  | nil => exact (Option.some.inj h).symm
  | cons k ks => cases h

/-- A change that leaves the table at its place sound leaves all of them sound.  What is
    not there yet is begun without entries. -/
theorem Sound.changeAt {f : Entries → Option Entries} (h : es.Sound)
    (hf : ∀ {inner inner' : Entries}, lookAt path es = some inner ∨ inner = [] → inner.Sound →
      f inner = some inner' → inner'.Sound)
    (hchange : changeAt f path es = some es') : es'.Sound := by
  induction path generalizing es es' with
  | nil => exact hf (.inl rfl) h hchange
  | cons k ks ih =>
    -- Only the table under the first key changes, and it does so at the rest of the path.
    obtain ⟨inner, made, hmade, hunder⟩ := exists_under_of_changeAt hchange
    refine hunder.sound h (ih (hunder.sound_inner h) ?_ hmade)
    intro place place' hplace
    apply hf
    obtain hlook | hempty := hplace
    · obtain hsame | rfl := hunder.lookAt_before ks
      · exact .inl (hsame.trans hlook)
      · -- Nothing stands on a way that begins at a table without entries.
        exact .inr (eq_nil_of_lookAt_nil hlook)
    · exact .inr hempty

theorem Sound.lookAt (h : es.Sound) (hlook : lookAt path es = some inner) : inner.Sound := by
  induction path generalizing es with
  | nil =>
    obtain rfl := Option.some.inj hlook
    exact h
  | cons k ks ih =>
    rw [Entries.lookAt] at hlook
    split at hlook
    · rename_i hnode
      exact ih (isTree_table.1 (h.node hnode)) hlook
    · rename_i elements hnode
      obtain ⟨last, hlast, hlook⟩ := Option.bind_eq_some_iff.1 hlook
      exact ih (isTree_tables.1 (h.node hnode) last (List.mem_of_getLast? hlast)) hlook
    · cases hlook

/-- What is found at the end of a path after a change is what the change made. -/
theorem exists_of_lookAt_changeAt {f : Entries → Option Entries}
    (hchange : changeAt f path es = some es') (hlook : lookAt path es' = some inner) :
    ∃ before, f before = some inner := by
  induction path generalizing es es' with
  | nil =>
    obtain rfl := Option.some.inj hlook
    exact ⟨es, hchange⟩
  | cons k ks ih =>
    obtain ⟨before, made, hmade, hunder⟩ := exists_under_of_changeAt hchange
    rw [hunder.lookAt_after] at hlook
    exact ih hmade hlook

theorem Sound.putValue {d : Document} (h : es.Sound) (hd : d.IsTree)
    (hput : putValue name d path es = some es') : es'.Sound := by
  induction path generalizing es es' with
  | nil =>
    obtain ⟨hfree, hes⟩ := Option.ite_none_left_eq_some.1 hput
    obtain rfl := Option.some.inj hes
    exact h.put (Option.not_isSome_iff_eq_none.1 hfree) hd
  | cons k ks ih =>
    obtain ⟨inner, made, hmade, hunder⟩ := exists_under_of_putValue hput
    exact hunder.sound h (ih (hunder.sound_inner h) hmade)

end Entries

/-! ## Values -/

/-- What a reader reads is a tree. -/
def ReadsTrees (read : Reader Document) : Prop :=
  ∀ ⦃cs d rest⦄, read cs = some (d, rest) → d.IsTree

section Scalars

variable {d : Document} {negative : Bool} {cs rest : List Char}

/-- The document of what was read last, with the text after it. -/
theorem eq_some_of_paired {x : Option Document}
    (h : (x >>= fun d => some (d, cs)) = some (d, rest)) : x = some d := by
  obtain ⟨y, hy, heq⟩ := Option.bind_eq_some_iff.1 h
  obtain ⟨rfl, -⟩ := Prod.mk.inj (Option.some.inj heq)
  exact hy

theorem isTree_of_toInt? {n : Nat} (h : toInt? negative n = some d) : d.IsTree := by
  simp only [toInt?] at h
  obtain ⟨-, h⟩ := Option.ite_none_right_eq_some.1 h
  obtain rfl := Option.some.inj h
  exact .int _

theorem isTree_of_toDouble? {whole fraction : List Nat} {e : Int}
    (h : toDouble? negative whole fraction e = some d) : d.IsTree := by
  rw [toDouble?] at h
  split at h
  · cases h
  · obtain rfl := Option.some.inj h
    exact .double _

theorem isTree_dateDocument (text : List Char) : (dateDocument text).IsTree := by
  rw [dateDocument, Document.isTree_table_iff]
  refine ⟨List.nodup_singleton _, fun e he => ?_⟩
  obtain rfl := List.mem_singleton.1 he
  exact .text _

theorem readTail_trees (negative : Bool) (whole : List Nat) :
    ReadsTrees (readTail negative whole) := by
  intro cs d rest h
  unfold readTail at h
  split at h
  · obtain ⟨⟨_, _⟩, -, h⟩ := Option.bind_eq_some_iff.1 h
    dsimp only at h
    split at h
    · obtain ⟨_, -, h⟩ := Option.bind_eq_some_iff.1 h
      exact isTree_of_toDouble? (eq_some_of_paired h)
    · obtain ⟨_, -, h⟩ := Option.bind_eq_some_iff.1 h
      exact isTree_of_toDouble? (eq_some_of_paired h)
    · exact isTree_of_toDouble? (eq_some_of_paired h)
  · obtain ⟨_, -, h⟩ := Option.bind_eq_some_iff.1 h
    exact isTree_of_toDouble? (eq_some_of_paired h)

theorem readMagnitude_trees (negative : Bool) : ReadsTrees (readMagnitude negative) := by
  intro cs d rest h
  unfold readMagnitude at h
  split at h
  · obtain ⟨rfl, -⟩ := Prod.mk.inj (Option.some.inj h)
    exact .double _
  · obtain ⟨rfl, -⟩ := Prod.mk.inj (Option.some.inj h)
    exact .double _
  · obtain ⟨⟨_, _⟩, -, h⟩ := Option.bind_eq_some_iff.1 h
    dsimp only at h
    split at h
    · exact readTail_trees negative _ h
    · exact isTree_of_toInt? (eq_some_of_paired h)

theorem readBased_trees (base : Nat) (value? : Char → Option Nat) :
    ReadsTrees (readBased base value?) := by
  intro cs d rest h
  obtain ⟨_, -, h⟩ := Option.bind_eq_some_iff.1 h
  exact isTree_of_toInt? (eq_some_of_paired h)

theorem readNumber_trees : ReadsTrees readNumber := by
  intro cs d rest h
  unfold readNumber at h
  split at h
  · exact readBased_trees _ _ h
  · exact readBased_trees _ _ h
  · exact readBased_trees _ _ h
  all_goals exact readMagnitude_trees _ h

theorem readDateTime_trees : ReadsTrees readDateTime := by
  intro cs d rest h
  obtain ⟨_, -, h⟩ := Option.bind_eq_some_iff.1 h
  dsimp only at h
  split at h
  · obtain ⟨_, -, h⟩ := Option.bind_eq_some_iff.1 h
    obtain ⟨_, -, h⟩ := Option.bind_eq_some_iff.1 h
    obtain ⟨rfl, -⟩ := Prod.mk.inj (Option.some.inj h)
    exact isTree_dateDocument _
  · obtain ⟨rfl, -⟩ := Prod.mk.inj (Option.some.inj h)
    exact isTree_dateDocument _

theorem readScalar_trees : ReadsTrees readScalar := by
  intro cs d rest h
  unfold readScalar at h
  split at h
  · obtain ⟨rfl, -⟩ := Prod.mk.inj (Option.some.inj h)
    exact .bool _
  · obtain ⟨rfl, -⟩ := Prod.mk.inj (Option.some.inj h)
    exact .bool _
  · split at h
    · exact readDateTime_trees h
    · split at h
      · obtain ⟨_, -, h⟩ := Option.bind_eq_some_iff.1 h
        obtain ⟨rfl, -⟩ := Prod.mk.inj (Option.some.inj h)
        exact isTree_dateDocument _
      · exact readNumber_trees h

end Scalars

/-- With this fuel a value is a tree, so are the items of an array, and a table between
    braces keeps its keys apart. -/
structure ReadsSoundly (fuel : Nat) : Prop where
  value : ∀ depth, ReadsTrees (readValue fuel depth)
  items : ∀ ⦃depth cs ds rest⦄, readItems fuel depth cs = some (ds, rest) → ∀ d ∈ ds, d.IsTree
  pairs : ∀ ⦃depth es cs es' rest⦄, Entries.Sound es →
    readPairs fuel depth es cs = some (es', rest) → Entries.Sound es'

section Fuel

variable {fuel : Nat} (h : ReadsSoundly fuel)

include h

theorem ReadsSoundly.value_succ (depth : Nat) : ReadsTrees (readValue (fuel + 1) depth) := by
  intro cs d rest hread
  rw [readValue.eq_def] at hread
  dsimp only at hread
  split at hread
  -- The two kinds of quotes, the array, the table between braces, and all else.
  · obtain ⟨_, -, hread⟩ := Option.bind_eq_some_iff.1 hread
    obtain ⟨rfl, -⟩ := Prod.mk.inj (Option.some.inj hread)
    exact .text _
  · obtain ⟨_, -, hread⟩ := Option.bind_eq_some_iff.1 hread
    obtain ⟨rfl, -⟩ := Prod.mk.inj (Option.some.inj hread)
    exact .text _
  · split at hread
    · cases hread
    · obtain ⟨_, hitems, hread⟩ := Option.bind_eq_some_iff.1 hread
      obtain ⟨rfl, -⟩ := Prod.mk.inj (Option.some.inj hread)
      exact Document.isTree_list_iff.2 (h.items hitems)
  · split at hread
    · cases hread
    · split at hread
      · obtain ⟨rfl, -⟩ := Prod.mk.inj (Option.some.inj hread)
        exact Entries.isTree_toDocument_iff.2 Entries.sound_nil
      · obtain ⟨_, hpairs, hread⟩ := Option.bind_eq_some_iff.1 hread
        obtain ⟨rfl, -⟩ := Prod.mk.inj (Option.some.inj hread)
        exact Entries.isTree_toDocument_iff.2 (h.pairs Entries.sound_nil hpairs)
  · exact readScalar_trees hread

theorem ReadsSoundly.items_succ {depth : Nat} {cs rest : List Char} {ds : List Document}
    (hread : readItems (fuel + 1) depth cs = some (ds, rest)) : ∀ d ∈ ds, d.IsTree := by
  rw [readItems.eq_def] at hread
  dsimp only at hread
  obtain ⟨_, -, hread⟩ := Option.bind_eq_some_iff.1 hread
  split at hread
  · -- The bracket that closes the array.
    obtain ⟨rfl, -⟩ := Prod.mk.inj (Option.some.inj hread)
    exact fun d hd => absurd hd List.not_mem_nil
  · obtain ⟨_, hvalue, hread⟩ := Option.bind_eq_some_iff.1 hread
    have hfirst := h.value _ hvalue
    obtain ⟨_, -, hread⟩ := Option.bind_eq_some_iff.1 hread
    -- After an item comes the end, or a comma with more items.
    split at hread
    · obtain ⟨rfl, -⟩ := Prod.mk.inj (Option.some.inj hread)
      exact List.forall_mem_singleton.2 hfirst
    · obtain ⟨_, hitems, hread⟩ := Option.bind_eq_some_iff.1 hread
      obtain ⟨rfl, -⟩ := Prod.mk.inj (Option.some.inj hread)
      exact List.forall_mem_cons.2 ⟨hfirst, h.items hitems⟩
    · cases hread

theorem ReadsSoundly.pairs_succ {depth : Nat} {cs rest : List Char} {es es' : Entries}
    (hes : es.Sound) (hread : readPairs (fuel + 1) depth es cs = some (es', rest)) :
    es'.Sound := by
  rw [readPairs.eq_def] at hread
  dsimp only at hread
  obtain ⟨_, -, hread⟩ := Option.bind_eq_some_iff.1 hread
  split at hread
  · obtain ⟨_, hvalue, hread⟩ := Option.bind_eq_some_iff.1 hread
    obtain ⟨es₁, hput, hread⟩ := Option.bind_eq_some_iff.1 hread
    have hes₁ := hes.putValue (h.value _ hvalue) hput
    split at hread
    · obtain ⟨rfl, -⟩ := Prod.mk.inj (Option.some.inj hread)
      exact hes₁
    · exact h.pairs hes₁ hread
    · cases hread
  · cases hread

end Fuel

/-- The readers of values call one another with less fuel. -/
theorem readsSoundly (fuel : Nat) : ReadsSoundly fuel := by
  induction fuel with
  | zero =>
    refine ⟨?_, ?_, ?_⟩
    · intro depth cs d rest h
      cases h
    · intro depth cs ds rest h
      cases h
    · intro depth es cs es' rest _ h
      cases h
  | succ fuel ih =>
    exact ⟨ih.value_succ, fun _ _ _ _ => ih.items_succ, fun _ _ _ _ _ => ih.pairs_succ⟩

theorem isTree_of_readPair {cs rest : List Char} {key : Key} {d : Document}
    (h : readPair cs = some ((key, d), rest)) : d.IsTree := by
  obtain ⟨⟨_, _⟩, -, h⟩ := Option.bind_eq_some_iff.1 h
  dsimp only at h
  split at h
  · obtain ⟨_, hvalue, h⟩ := Option.bind_eq_some_iff.1 h
    obtain ⟨_, -, h⟩ := Option.bind_eq_some_iff.1 h
    obtain ⟨heq, -⟩ := Prod.mk.inj (Option.some.inj h)
    obtain ⟨-, rfl⟩ := Prod.mk.inj heq
    exact (readsSoundly _).value _ hvalue
  · cases h

/-! ## Lines -/

namespace Build

variable {b b' : Build} {key : Key}

/-- The tables are sound, and the open one has a place of its own to go to. -/
structure Sound (b : Build) : Prop where
  root : b.root.Sound
  current : b.current.Sound
  free : ∀ key, b.header = some key → b.inArray = false →
    ∀ parent, Entries.lookAt key.path b.root = some parent → parent.node? key.name = none

theorem sound_empty : Sound {} :=
  ⟨Entries.sound_nil, Entries.sound_nil, fun _ h => by cases h⟩

theorem Sound.close (h : b.Sound) {es : Entries} (hclose : b.close = some es) : es.Sound := by
  rw [Build.close] at hclose
  split at hclose
  · obtain rfl := Option.some.inj hclose
    exact h.current
  · rename_i key hkey
    refine h.root.changeAt ?_ hclose
    intro inner inner' hplace hinner hclosed
    rw [closeIn] at hclosed
    split at hclosed
    · -- One more table of an array, which may be the first one.
      split at hclosed
      · rename_i hnone
        obtain rfl := Option.some.inj hclosed
        refine hinner.put hnone (Entries.isTree_tables.2 ?_)
        exact List.forall_mem_singleton.2 h.current
      · rename_i elements hnode
        obtain rfl := Option.some.inj hclosed
        refine hinner.set (Entries.isTree_tables.2 ?_)
        refine List.forall_mem_append.2 ⟨Entries.isTree_tables.1 (hinner.node hnode), ?_⟩
        exact List.forall_mem_singleton.2 h.current
      · cases hclosed
    · -- A table of its own goes to the place that its header has found free.
      rename_i hsingle
      obtain rfl := Option.some.inj hclosed
      have hfree : inner.node? key.name = none := by
        cases hplace with
        | inl hlook => exact h.free key hkey (by simpa using hsingle) inner hlook
        | inr hempty =>
          rw [hempty]
          rfl
      exact hinner.put hfree (Entries.isTree_table.2 h.current)

theorem Sound.openElement (h : b.Sound) (hopen : b.openElement key = some b') : b'.Sound := by
  obtain ⟨root, hroot, hopen⟩ := Option.bind_eq_some_iff.1 hopen
  obtain rfl := Option.some.inj hopen
  exact ⟨h.close hroot, Entries.sound_nil, fun _ _ hsingle => by cases hsingle⟩

theorem Sound.openTable (h : b.Sound) (hopen : b.openTable key = some b') : b'.Sound := by
  obtain ⟨closed, hclosed, hopen⟩ := Option.bind_eq_some_iff.1 hopen
  obtain ⟨root, hroot, hopen⟩ := Option.bind_eq_some_iff.1 hopen
  obtain ⟨parent, hparent, hopen⟩ := Option.bind_eq_some_iff.1 hopen
  have hrootSound : root.Sound := by
    refine (h.close hclosed).changeAt ?_ hroot
    rintro inner inner' - hinner heq
    obtain rfl := Option.some.inj heq
    exact hinner
  split at hopen
  · -- Nothing stands there yet.
    rename_i hnone
    obtain rfl := Option.some.inj hopen
    refine ⟨hrootSound, Entries.sound_nil, fun other hother _ place hplace => ?_⟩
    obtain rfl := Option.some.inj hother
    obtain rfl := Option.some.inj (hparent.symm.trans hplace)
    exact hnone
  · -- An implied table is taken out, to be put back with what the header adds to it.
    rename_i inner hnode
    obtain ⟨root', hroot', hopen⟩ := Option.bind_eq_some_iff.1 hopen
    obtain rfl := Option.some.inj hopen
    have hinner := Entries.isTree_table.1 ((hrootSound.lookAt hparent).node hnode)
    refine ⟨hrootSound.changeAt ?_ hroot', hinner, fun other hother _ place hplace => ?_⟩
    · rintro place place' - hplace heq
      obtain rfl := Option.some.inj heq
      exact hplace.without
    · obtain rfl := Option.some.inj hother
      obtain ⟨before, hbefore⟩ := Entries.exists_of_lookAt_changeAt hroot' hplace
      obtain rfl := Option.some.inj hbefore
      exact Entries.node?_without
  · cases hopen

end Build

theorem readLines_sound {fuel : Nat} {b : Build} {cs : List Char} {es : Entries} (hb : b.Sound)
    (h : readLines fuel b cs = some es) : es.Sound := by
  induction fuel generalizing b cs with
  | zero => cases h
  | succ fuel ih =>
    rw [readLines] at h
    split at h
    · exact hb.close h
    · obtain ⟨_, -, h⟩ := Option.bind_eq_some_iff.1 h
      exact ih hb h
    · obtain ⟨_, -, h⟩ := Option.bind_eq_some_iff.1 h
      obtain ⟨b', hopen, h⟩ := Option.bind_eq_some_iff.1 h
      exact ih (hb.openElement hopen) h
    · obtain ⟨_, -, h⟩ := Option.bind_eq_some_iff.1 h
      obtain ⟨b', hopen, h⟩ := Option.bind_eq_some_iff.1 h
      exact ih (hb.openTable hopen) h
    · exact ih hb h
    · exact ih hb h
    · obtain ⟨⟨⟨key, d⟩, rest⟩, hpair, h⟩ := Option.bind_eq_some_iff.1 h
      obtain ⟨current, hput, h⟩ := Option.bind_eq_some_iff.1 h
      have hcurrent := hb.current.putValue (isTree_of_readPair hpair) hput
      exact ih (b := { b with current }) ⟨hb.root, hcurrent, hb.free⟩ h

/-- The document of a text is a tree. -/
theorem isTree_of_document? {s : String} {d : Document} (h : document? s = some d) :
    d.IsTree := by
  obtain ⟨es, hes, rfl⟩ := Option.map_eq_some_iff.1 h
  exact Entries.isTree_toDocument_iff.2 (readLines_sound Build.sound_empty hes)

end Toml
end PluginHost
