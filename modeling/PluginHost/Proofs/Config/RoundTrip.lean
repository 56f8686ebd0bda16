/-
  PluginHost.Proofs.Config.RoundTrip

  A configuration is read back from the document as which it is written.  The fields of
  a struct stand in order of declaration, and each of them fills its field
  (`Record.Fills`); the plugins and the hosts stand in any order, for a map does not tell
  in which order it gives its entries (`Written`).

    * `Toml.IsValue d` — what TOML can hold: integers of 64 bits with a sign, tables
      whose keys differ, and no `null`.
    * `Written c d` — the documents as which a configuration is written.

  The document of a configuration can be held by TOML as long as the seconds of its
  plugins can.  Every other number in it has 16 bits.
-/
import PluginHost.Config.Encode
import PluginHost.Config.Load
import PluginHost.Proofs.Schema.Order

namespace PluginHost

/-! ## What TOML can hold -/

/-- A document that TOML can hold. -/
inductive Toml.IsValue : Document → Prop where
  | bool (b : Bool) : IsValue (.bool b)
  | int {n : Int} (hlow : Int64.minValue.toInt ≤ n) (hhigh : n ≤ Int64.maxValue.toInt) :
      IsValue (.int n)
  | double (x : Double) : IsValue (.double x)
  | text (s : String) : IsValue (.text s)
  | list {ds : List Document} (hitems : ∀ d ∈ ds, IsValue d) : IsValue (.list ds)
  | table {es : List (String × Document)} (hdiffer : (es.map (·.1)).Nodup)
      (hvalues : ∀ e ∈ es, IsValue e.2) : IsValue (.table es)

/-! ## Values and records -/

namespace Schema

open Document (table)

theorem list_of_forall {α : Type} {read : Document → Read α} {f : α → Document}
    (h : ∀ a, read (f a) = .ok a) (as : List α) : Schema.list read (.list (as.map f)) = .ok as := by
  have hitems : items read (as.map f) = .ok as := by
    induction as with
    | nil => rfl
    | cons a as ih =>
      rw [List.map_cons, items, h, ih]
      rfl
  simp only [Document.list, Schema.list, hitems]
  rfl

theorem map_of_forall {α : Type} {read : Document → Read α} {f : α → Document}
    (h : ∀ a, read (f a) = .ok a) (es : List (String × α)) :
    Schema.map read (table (es.map fun e => (e.1, f e.2))) = .ok es := by
  have hentries :
      entries read ((es.map fun e => (e.1, f e.2)).map fun e => (some e.1, e.2)) = .ok es := by
    induction es with
    | nil => rfl
    | cons e es ih =>
      rw [List.map_cons, List.map_cons, entries, h, ih]
      rfl
  rw [Document.table_eq, Schema.map, hentries]
  rfl

theorem natBelow_of_lt {n bound : Nat} (h : n < bound) (expected : String) :
    natBelow bound expected (.int n) = .ok n := by
  have hin : 0 ≤ (n : Int) ∧ (n : Int) < bound := ⟨Int.natCast_nonneg n, Int.ofNat_lt.2 h⟩
  rw [natBelow, if_pos hin, Int.toNat_natCast]

theorem word64_of_toNat (w : UInt64) : word64 (.int w.toNat) = .ok w := by
  rw [word64, natBelow_of_lt w.toNat_lt]
  exact congrArg Except.ok UInt64.ofNat_toNat

theorem word16_of_toNat (w : UInt16) : word16 (.int w.toNat) = .ok w := by
  rw [word16, natBelow_of_lt w.toNat_lt]
  exact congrArg Except.ok UInt16.ofNat_toNat

namespace Record

variable {φ δ α : Type} {r : Record φ δ α}

/-- The entries of a table fill fields, one after another, none of them twice. -/
inductive Fills (r : Record φ δ α) : δ → List (String × Document) → δ → Prop
  | nil {draft : δ} : Fills r draft [] draft
  | cons {key : String} {d : Document} {es : List (String × Document)} {f : φ}
      {draft next last : δ} (hfield : r.fieldOf key = some f) (hblank : r.filled draft f = false)
      (hfill : r.fill draft f d = .ok next) (h : Fills r next es last) :
      Fills r draft ((key, d) :: es) last

theorem read_of_fills [DecidableEq φ] {es : List (String × Document)} {draft : δ} {a : α}
    (h : r.Fills r.blank es draft) (hfinish : r.finish draft = .ok a) (surplus : Surplus) :
    r.read surplus (table es) = .ok a := by
  have hentries : ∀ {first es last}, r.Fills first es last →
      r.fillEntries first (es.map fun e => (some e.1, e.2)) = .ok last := by
    intro first es last h
    induction h with
    | nil => rfl
    | cons hfield hblank hfill _ ih =>
      rw [List.map_cons, fillEntries_cons hfield hblank hfill, ih]
  exact read_map (hentries h) hfinish surplus

end Record
end Schema

namespace Config

open Document (table)
open Schema

/-! ## The structs -/

theorem read_texts (ts : List String) : Schema.list text (textsDocument ts) = .ok ts :=
  list_of_forall (fun t => by rfl) ts

theorem read_about (a : About) : About.record.read .ignored a.toDocument = .ok a := by
  have hlist : About.record.fill { version := some a.version, author := some a.author }
      .contributors (textsDocument a.contributors)
        = .ok ⟨some a.version, some a.author, some a.contributors⟩ := by
    simp only [About.record, read_texts]
    rfl
  exact Record.read_of_fills (.cons rfl rfl rfl (.cons rfl rfl rfl (.cons rfl rfl hlist .nil)))
    rfl .ignored

theorem read_settings (s : Settings) : Settings.record.read .ignored s.toDocument = .ok s :=
  Record.read_of_fills (.cons rfl rfl rfl .nil) rfl .ignored

theorem read_host (h : HostEntry) : HostEntry.record.read .ignored h.toDocument = .ok h := by
  have hlist : HostEntry.record.fill none .plugins (textsDocument h.plugins)
      = .ok (some h.plugins) := by
    simp only [HostEntry.record, read_texts]
    rfl
  exact Record.read_of_fills (.cons rfl rfl hlist .nil) rfl .ignored

theorem read_plugin (p : PluginEntry) : PluginEntry.record.read .ignored p.toDocument = .ok p := by
  have hlist (draft : PluginEntry.Draft) :
      PluginEntry.record.fill draft .arguments (textsDocument p.arguments)
        = .ok { draft with arguments := some p.arguments } := by
    simp only [PluginEntry.record, read_texts]
    rfl
  have hseconds (draft : PluginEntry.Draft) :
      PluginEntry.record.fill draft .graceSeconds (.int p.graceSeconds.toNat)
        = .ok { draft with graceSeconds := some p.graceSeconds } := by
    simp only [PluginEntry.record, word64_of_toNat]
    rfl
  have hport (draft : PluginEntry.Draft) (port : UInt16) :
      PluginEntry.record.fill draft .port (.int port.toNat)
        = .ok { draft with port := some (some port) } := by
    simp only [PluginEntry.record, option, word16_of_toNat]
    rfl
  obtain ⟨author, digest, command, arguments, file, seconds, protocol, port⟩ := p
  cases port with
  | none =>
    exact Record.read_of_fills (.cons rfl rfl rfl (.cons rfl rfl rfl (.cons rfl rfl rfl
      (.cons rfl rfl (hlist _) (.cons rfl rfl rfl (.cons rfl rfl (hseconds _) (.cons rfl rfl rfl
        .nil))))))) rfl .ignored
  | some port =>
    exact Record.read_of_fills (.cons rfl rfl rfl (.cons rfl rfl rfl (.cons rfl rfl rfl
      (.cons rfl rfl (hlist _) (.cons rfl rfl rfl (.cons rfl rfl (hseconds _) (.cons rfl rfl rfl
        (.cons rfl rfl (hport _ port) .nil)))))))) rfl .ignored

/-! ## The whole configuration -/

/-- The document of values under names, in the order of a list. -/
def entriesDocument {α : Type} (f : α → Document) (es : List (String × α)) : Document :=
  table (es.map fun e => (e.1, f e.2))

/-- The documents as which a configuration is written. -/
inductive Written (c : Config) : Document → Prop
  | intro {plugins : List (String × PluginEntry)} {hosts : List (String × HostEntry)}
      (hplugins : plugins.Perm c.plugins.entries) (hhosts : hosts.Perm c.hosts.entries) :
      Written c (table [
        ("meta", c.about.toDocument),
        ("settings", c.settings.toDocument),
        ("plugins", entriesDocument PluginEntry.toDocument plugins),
        ("hosts", entriesDocument HostEntry.toDocument hosts)])

theorem written_toDocument (c : Config) : c.Written c.toDocument := by
  have hentries : ∀ {α : Type} (f : α → Document) (m : NameMap α),
      mapDocument f m = entriesDocument f m.entries := by
    intro α f m
    simp only [mapDocument, entriesDocument, NameMap.map, NameMap.filterMap, Option.map_some,
      List.filterMap_eq_map']
  rw [toDocument, hentries, hentries]
  exact .intro (.refl _) (.refl _)

theorem ofDocument_of_written {c : Config} {d : Document} (h : c.Written d) :
    ofDocument d = .ok c := by
  obtain @⟨plugins, hosts, hplugins, hhosts⟩ := h
  have habout : record.fill {} .about c.about.toDocument = .ok { about := some c.about } := by
    simp only [record, read_about]
    rfl
  have hsettings (draft : Draft) : record.fill draft .settings c.settings.toDocument
      = .ok { draft with settings := some c.settings } := by
    simp only [record, read_settings]
    rfl
  have hpluginMap (draft : Draft) :
      record.fill draft .plugins (entriesDocument PluginEntry.toDocument plugins)
        = .ok { draft with plugins := some c.plugins } := by
    simp only [record, entriesDocument, map_of_forall read_plugin]
    rw [← NameMap.ofList_of_perm hplugins]
    rfl
  have hhostMap (draft : Draft) :
      record.fill draft .hosts (entriesDocument HostEntry.toDocument hosts)
        = .ok { draft with hosts := some c.hosts } := by
    simp only [record, entriesDocument, map_of_forall read_host]
    rw [← NameMap.ofList_of_perm hhosts]
    rfl
  exact Record.read_of_fills (.cons rfl rfl habout (.cons rfl rfl (hsettings _)
    (.cons rfl rfl (hpluginMap _) (.cons rfl rfl (hhostMap _) .nil)))) rfl .ignored

/-! ## Written as TOML -/

section Values

open Toml (IsValue)

theorem isValue_of_nat {n : Nat} (h : (n : Int) ≤ Int64.maxValue.toInt) : IsValue (.int n) := by
  have hlow : Int64.minValue.toInt ≤ 0 := by decide
  exact .int (Int.le_trans hlow (Int.natCast_nonneg n)) h

theorem isValue_texts (ts : List String) : IsValue (textsDocument ts) := by
  refine .list fun d hd => ?_
  obtain ⟨t, -, rfl⟩ := List.mem_map.1 hd
  exact .text t

theorem isValue_about (a : About) : IsValue a.toDocument := by
  refine .table (by simp only [List.map_cons, List.map_nil]; decide) ?_
  simp only [List.forall_mem_cons, List.not_mem_nil,
    IsEmpty.forall_iff, implies_true, and_true]
  exact ⟨.text _, .text _, isValue_texts _⟩

theorem isValue_settings (s : Settings) : IsValue s.toDocument :=
  .table (List.nodup_singleton _) (List.forall_mem_singleton.2 (.bool _))

theorem isValue_host (h : HostEntry) : IsValue h.toDocument :=
  .table (List.nodup_singleton _) (List.forall_mem_singleton.2 (isValue_texts _))

theorem isValue_plugin {p : PluginEntry} (h : (p.graceSeconds.toNat : Int) ≤ Int64.maxValue.toInt) :
    IsValue p.toDocument := by
  have hport (port : UInt16) : IsValue (.int port.toNat) := by
    refine isValue_of_nat ?_
    have hsmall : (port.toNat : Int) < UInt16.size := Int.ofNat_lt.2 port.toNat_lt
    exact Int.le_trans (Int.le_of_lt hsmall) (by decide)
  obtain ⟨author, digest, command, arguments, file, seconds, protocol, port⟩ := p
  cases port with
  | none =>
    refine .table ?_ ?_
    · simp only [portEntry, List.map_cons, List.map_nil, List.append_nil]
      decide
    · simp only [portEntry, List.append_nil, List.forall_mem_cons, List.not_mem_nil,
        IsEmpty.forall_iff, implies_true, and_true]
      exact ⟨.text _, .text _, .text _, isValue_texts _, .text _, isValue_of_nat h, .text _⟩
  | some port =>
    refine .table ?_ ?_
    · simp only [portEntry, List.map_cons, List.map_nil, List.cons_append, List.nil_append]
      decide
    · simp only [portEntry, List.cons_append, List.nil_append, List.forall_mem_cons,
        List.not_mem_nil, IsEmpty.forall_iff, implies_true, and_true]
      exact ⟨.text _, .text _, .text _, isValue_texts _, .text _, isValue_of_nat h, .text _,
        hport _⟩

/-- A map may give its entries in any order, for their names differ. -/
theorem isValue_entries {α : Type} {f : α → Document} {m : NameMap α} {es : List (String × α)}
    (h : es.Perm m.entries) (hf : ∀ name a, m.get? name = some a → IsValue (f a)) :
    IsValue (entriesDocument f es) := by
  refine .table ?_ ?_
  · have hnames : (es.map fun e => (e.1, f e.2)).map (·.1) = es.map (·.1) := by
      rw [List.map_map]
      rfl
    rw [hnames, (h.map _).nodup_iff]
    exact m.nodup_names
  · intro e he
    obtain ⟨⟨name, a⟩, hmem, rfl⟩ := List.mem_map.1 he
    exact hf name a (NameMap.get?_eq_some_iff.2 (h.mem_iff.1 hmem))

/-- The seconds of every plugin are an integer of TOML. -/
def SecondsFit (c : Config) : Prop :=
  ∀ name p, c.plugins.get? name = some p → (p.graceSeconds.toNat : Int) ≤ Int64.maxValue.toInt

theorem isValue_of_written {c : Config} {d : Document} (h : c.Written d) (hc : c.SecondsFit) :
    IsValue d := by
  obtain @⟨plugins, hosts, hplugins, hhosts⟩ := h
  refine .table (by simp only [List.map_cons, List.map_nil]; decide) ?_
  simp only [List.forall_mem_cons, List.not_mem_nil,
    IsEmpty.forall_iff, implies_true, and_true]
  refine ⟨isValue_about _, isValue_settings _, isValue_entries hplugins ?_,
    isValue_entries hhosts ?_⟩
  · intro name p hp
    exact isValue_plugin (hc name p hp)
  · intro name host _
    exact isValue_host host

end Values

/-! ## There and back -/

/-- Whatever its names and texts are, and whether or not its plugins have ports, a
    configuration whose seconds fit can be written as TOML, and it is read back as it was,
    in whichever order its plugins and its hosts were written. -/
theorem config_round_trip (c : Config) (hc : c.SecondsFit) :
    c.Written c.toDocument ∧
    ∀ d, c.Written d → Toml.IsValue d ∧ ofDocument d = .ok c ∧
      ∀ s, Toml.document? s = some d → ofText s = .ok c := by
  refine ⟨written_toDocument c, ?_⟩
  intro d hd
  have hread := ofDocument_of_written hd
  refine ⟨isValue_of_written hd hc, hread, ?_⟩
  intro s hs
  simp only [ofText, parse, Toml.readAs, hs, hread]

/-- A configuration at the edges: names and texts that are empty, a port and no port, and as
    many seconds as TOML can count. -/
def edges : Config where
  about := { contributors := [""] }
  plugins := .ofList [
    ("", { command := "", file := "", protocol := "", port := some 65535 }),
    ("p", { command := "run", arguments := ["", "-v"], file := "ü", protocol := "rest",
            graceSeconds := 9223372036854775807 })]
  hosts := .ofList [("h", { plugins := ["p", ""] }), ("", {})]

theorem edges_secondsFit : edges.SecondsFit := by
  intro name p hp
  have hmem := NameMap.mem_of_get?_ofList hp
  simp only [List.mem_cons, Prod.mk.injEq, List.not_mem_nil, or_false] at hmem
  obtain ⟨-, rfl⟩ | ⟨-, rfl⟩ := hmem
  · decide
  · decide

/-- It is read back, and so it is if its plugins and its hosts were written the other way
    round. -/
theorem edges_round_trip :
    edges.SecondsFit ∧ ofDocument edges.toDocument = .ok edges ∧
    ∃ d, edges.Written d ∧ Toml.IsValue d ∧ ofDocument d = .ok edges ∧
      d = table [("meta", edges.about.toDocument), ("settings", edges.settings.toDocument),
        ("plugins", entriesDocument PluginEntry.toDocument edges.plugins.entries.reverse),
        ("hosts", entriesDocument HostEntry.toDocument edges.hosts.entries.reverse)] := by
  obtain ⟨hwritten, hread⟩ := config_round_trip edges edges_secondsFit
  have hreversed : edges.Written _ := .intro (List.reverse_perm _) (List.reverse_perm _)
  obtain ⟨hvalue, hback, -⟩ := hread _ hreversed
  exact ⟨edges_secondsFit, (hread _ hwritten).2.1, _, hreversed, hvalue, hback, rfl⟩

end Config
end PluginHost
