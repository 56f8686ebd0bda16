/-
  PluginHost.Proofs.Config.Edits

  What may be changed in the document of a configuration without changing what is
  decoded.  A key is judged by the place where it stands (`Place`), and one change
  (`Edit`) reorders a table, adds a key that nothing at its place knows, calls the digest
  by its other name, or is such a change further down.  Changes may be made one after
  another, and taken back.
-/
import Mathlib.Logic.Relation
import PluginHost.Config.Load
import PluginHost.Proofs.Schema.Order
import PluginHost.Proofs.Schema.Trees
import PluginHost.Proofs.Toml.Trees

namespace PluginHost
namespace Config

open Document (table IsTree)
open Schema (Record)

/-! ## Places and changes -/

/-- What a part of the document is decoded as.  The plugins and the hosts are maps, in
    which every key is a name; all that is no struct and no map is a value. -/
inductive Place where
  | config | about | settings | plugins | plugin | hosts | host | value

/-- The keys that the struct at a place knows, if there is one. -/
def Place.known : Place → Option (List String)
  | .config => some ["meta", "settings", "plugins", "hosts"]
  | .about => some ["version", "author", "contributors"]
  | .settings => some ["debug"]
  | .plugin => some ["author", "md5", "hash", "exec", "exec_args", "exec_file", "exec_time",
      "protocol_type", "port"]
  | .host => some ["plugins"]
  | .plugins | .hosts | .value => none

/-- The place of what stands under a key. -/
def Place.under : Place → String → Place
  | .config, "meta" => .about
  | .config, "settings" => .settings
  | .config, "plugins" => .plugins
  | .config, "hosts" => .hosts
  | .plugins, _ => .plugin
  | .hosts, _ => .host
  | _, _ => .value

/-- One change to the document at a place, which leaves what is decoded as it is. -/
inductive Edit : Place → Document → Document → Prop where
  /-- The keys of a table in another order. -/
  | reorder (p : Place) {es fs : List (String × Document)} (h : es.Perm fs) :
      Edit p (table es) (table fs)
  /-- One more key, not known to the struct, with any value. -/
  | add (p : Place) {known : List String} (before after : List (String × Document)) {key : String}
      {d : Document} (hknown : p.known = some known) (hkey : key ∉ known)
      (hfree : key ∉ (before ++ after).map (·.1)) (hd : d.IsTree) :
      Edit p (table (before ++ after)) (table (before ++ (key, d) :: after))
  /-- The digest of a plugin by its other name. -/
  | rename (before after : List (String × Document)) (d : Document)
      (hfree : "hash" ∉ (before ++ after).map (·.1) ∧ "md5" ∉ (before ++ after).map (·.1)) :
      Edit .plugin (table (before ++ ("md5", d) :: after)) (table (before ++ ("hash", d) :: after))
  /-- A change of what stands under a key. -/
  | entry (p : Place) (before after : List (String × Document)) (key : String) {d e : Document}
      (h : Edit (p.under key) d e) :
      Edit p (table (before ++ (key, d) :: after)) (table (before ++ (key, e) :: after))
  /-- A change of an item.  A struct may be written as the list of its fields, except that a
      document is a table. -/
  | item (p : Place) (hp : p ≠ .config) (before after : List Document) {d e : Document}
      (h : Edit .value d e) :
      Edit p (.list (before ++ d :: after)) (.list (before ++ e :: after))

/-- Documents that changes lead from one to the other, forth and back. -/
def Edited : Document → Document → Prop :=
  Relation.EqvGen (Edit .config)

/-! ## Trees stay trees -/

section Trees

variable {before after : List (String × Document)} {key key' : String} {d e : Document}

theorem isTree_table_middle_iff :
    (table (before ++ (key, d) :: after)).IsTree ↔
      d.IsTree ∧ key ∉ (before ++ after).map (·.1) ∧ (table (before ++ after)).IsTree := by
  have hmiddle : (before ++ (key, d) :: after).Perm ((key, d) :: (before ++ after)) :=
    List.perm_middle
  rw [Document.isTree_table_iff, Document.isTree_table_iff, (hmiddle.map _).nodup_iff,
    List.map_cons, List.nodup_cons]
  have hvalues : (∀ x ∈ before ++ (key, d) :: after, x.2.IsTree) ↔
      d.IsTree ∧ ∀ x ∈ before ++ after, x.2.IsTree := by
    simp only [hmiddle.mem_iff, List.forall_mem_cons]
  rw [hvalues]
  tauto

theorem Edit.isTree_iff {p : Place} (h : Edit p d e) : d.IsTree ↔ e.IsTree := by
  induction h with
  | reorder p hperm =>
    rw [Document.isTree_table_iff, Document.isTree_table_iff, (hperm.map _).nodup_iff]
    simp only [hperm.mem_iff]
  | add p before after hknown hkey hfree hd =>
    rw [isTree_table_middle_iff]
    exact ⟨fun h => ⟨hd, hfree, h⟩, fun h => h.2.2⟩
  | rename before after d hfree =>
    rw [isTree_table_middle_iff, isTree_table_middle_iff]
    exact ⟨fun h => ⟨h.1, hfree.1, h.2.2⟩, fun h => ⟨h.1, hfree.2, h.2.2⟩⟩
  | entry p before after key h ih =>
    rw [isTree_table_middle_iff, isTree_table_middle_iff, ih]
  | item p hp before after h ih =>
    rw [Document.isTree_list_iff, Document.isTree_list_iff]
    simp only [List.forall_mem_append, List.forall_mem_cons, ih]

end Trees

/-! ## The structs -/

theorem About.record_lawful : About.record.Lawful := by
  constructor
  · intro draft draft' f d h g
    cases f
    all_goals
      obtain ⟨v, -, hv⟩ := bind_eq_ok_iff.1 h
      obtain rfl := Except.ok.inj hv
      cases g <;> simp [About.record]
  · intro f g hne draft d e
    cases f <;> cases g
    all_goals first
      | exact absurd rfl hne
      | simp only [About.record, bind_assoc, pure_bind]
        exact alike_comm _ _ _

theorem Settings.record_lawful : Settings.record.Lawful := by
  constructor
  · intro draft draft' f d h g
    obtain ⟨v, -, rfl⟩ := map_eq_ok_iff.1 h
    simp [Settings.record]
  · intro f g hne
    exact absurd rfl hne

theorem HostEntry.record_lawful : HostEntry.record.Lawful := by
  constructor
  · intro draft draft' f d h g
    obtain ⟨v, -, rfl⟩ := map_eq_ok_iff.1 h
    simp [HostEntry.record]
  · intro f g hne
    exact absurd rfl hne

theorem PluginEntry.record_lawful : PluginEntry.record.Lawful := by
  constructor
  · intro draft draft' f d h g
    cases f
    all_goals
      obtain ⟨v, -, hv⟩ := bind_eq_ok_iff.1 h
      obtain rfl := Except.ok.inj hv
      cases g <;> simp [PluginEntry.record]
  · intro f g hne draft d e
    cases f <;> cases g
    all_goals first
      | exact absurd rfl hne
      | simp only [PluginEntry.record, bind_assoc, pure_bind]
        exact alike_comm _ _ _

theorem record_lawful : record.Lawful := by
  constructor
  · intro draft draft' f d h g
    cases f
    all_goals
      obtain ⟨v, -, hv⟩ := bind_eq_ok_iff.1 h
      obtain rfl := Except.ok.inj hv
      cases g <;> simp [record]
  · intro f g hne draft d e
    cases f <;> cases g
    all_goals first
      | exact absurd rfl hne
      | simp only [record, bind_assoc, pure_bind]
        exact alike_comm _ _ _

/-! ## One change -/

/-- Every reader of a value makes the same of two documents. -/
structure SameValue (d e : Document) : Prop where
  text : Alike (Schema.text d) (Schema.text e)
  path : Alike (Schema.path d) (Schema.path e)
  bool : Alike (Schema.bool d) (Schema.bool e)
  seconds : Alike (Schema.word64 d) (Schema.word64 e)
  port : Alike (Schema.option Schema.word16 d) (Schema.option Schema.word16 e)
  texts : Alike (Schema.list Schema.text d) (Schema.list Schema.text e)

/-- No value is written as a table. -/
theorem sameValue_table (es fs : List (String × Document)) : SameValue (table es) (table fs) :=
  ⟨rfl, rfl, rfl, rfl, rfl, rfl⟩

/-- The only value that is written as a list is a list of texts. -/
theorem SameValue.item {d e : Document} (h : SameValue d e) (before after : List Document) :
    SameValue (.list (before ++ d :: after)) (.list (before ++ e :: after)) :=
  ⟨rfl, rfl, rfl, rfl, rfl, Schema.list_alike_of_item before after h.text⟩

/-- What the reader of a place makes of two documents is the same. -/
def Place.Same : Place → Document → Document → Prop
  | .config, d, e => Alike (record.read .ignored d) (record.read .ignored e)
  | .about, d, e => Alike (About.record.read .ignored d) (About.record.read .ignored e)
  | .settings, d, e => Alike (Settings.record.read .ignored d) (Settings.record.read .ignored e)
  | .plugins, d, e =>
    Alike (NameMap.ofList <$> Schema.map (PluginEntry.record.read .ignored) d)
      (NameMap.ofList <$> Schema.map (PluginEntry.record.read .ignored) e)
  | .plugin, d, e =>
    Alike (PluginEntry.record.read .ignored d) (PluginEntry.record.read .ignored e)
  | .hosts, d, e =>
    Alike (NameMap.ofList <$> Schema.map (HostEntry.record.read .ignored) d)
      (NameMap.ofList <$> Schema.map (HostEntry.record.read .ignored) e)
  | .host, d, e => Alike (HostEntry.record.read .ignored d) (HostEntry.record.read .ignored e)
  | .value, d, e => SameValue d e

section Structs

variable {φ δ α : Type} {p : Place} {r : Record φ δ α}

/-- A record is the struct at a place. -/
structure Describes (p : Place) (r : Record φ δ α) : Prop where
  lawful : r.Lawful
  unknown : ∀ {known : List String} {key : String}, p.known = some known → key ∉ known →
    r.fieldOf key = none
  entry : ∀ {key : String} {f : φ} {d e : Document}, r.fieldOf key = some f →
    (p.under key).Same d e → ∀ draft, Alike (r.fill draft f d) (r.fill draft f e)
  item : p ≠ .config → ∀ {d e : Document}, SameValue d e → ∀ f draft,
    Alike (r.fill draft f d) (r.fill draft f e)

/-- A struct of values is told by its keys and by what is read for them. -/
theorem describes_of_values (hvalues : ∀ key, p.under key = .value)
    (hlawful : r.Lawful)
    (hunknown : ∀ {known : List String} {key : String}, p.known = some known → key ∉ known →
      r.fieldOf key = none)
    (hitem : ∀ {d e : Document}, SameValue d e → ∀ f draft,
      Alike (r.fill draft f d) (r.fill draft f e)) : Describes p r where
  lawful := hlawful
  unknown := hunknown
  entry {key} _ _ _ _ h draft := by
    rw [hvalues key] at h
    exact hitem h _ draft
  item _ _ _ h := hitem h

theorem about_describes : Describes .about About.record := by
  refine describes_of_values (fun _ => rfl) About.record_lawful ?_ ?_
  · intro known key hknown hkey
    obtain rfl := Option.some.inj hknown
    simp only [List.mem_cons, List.not_mem_nil, not_or] at hkey
    simp only [About.record]
    split <;> simp_all
  · intro d e h f draft
    cases f with
    | contributors => exact h.texts.bind _
    | _ => exact h.text.bind _

theorem settings_describes : Describes .settings Settings.record := by
  refine describes_of_values (fun _ => rfl) Settings.record_lawful ?_ ?_
  · intro known key hknown hkey
    obtain rfl := Option.some.inj hknown
    simp only [List.mem_cons, List.not_mem_nil, not_or] at hkey
    simp only [Settings.record]
    split <;> simp_all
  · intro d e h f draft
    exact h.bool.map some

theorem plugin_describes : Describes .plugin PluginEntry.record := by
  refine describes_of_values (fun _ => rfl) PluginEntry.record_lawful ?_ ?_
  · intro known key hknown hkey
    obtain rfl := Option.some.inj hknown
    simp only [List.mem_cons, List.not_mem_nil, not_or] at hkey
    simp only [PluginEntry.record]
    split <;> simp_all
  · intro d e h f draft
    cases f with
    | arguments => exact h.texts.bind _
    | file => exact h.path.bind _
    | graceSeconds => exact h.seconds.bind _
    | port => exact h.port.bind _
    | _ => exact h.text.bind _

theorem host_describes : Describes .host HostEntry.record := by
  refine describes_of_values (fun _ => rfl) HostEntry.record_lawful ?_ ?_
  · intro known key hknown hkey
    obtain rfl := Option.some.inj hknown
    simp only [List.mem_cons, List.not_mem_nil, not_or] at hkey
    simp only [HostEntry.record]
    split <;> simp_all
  · intro d e h f draft
    exact h.texts.map some

theorem config_describes : Describes .config record := by
  refine ⟨record_lawful, ?_, ?_, fun h => absurd rfl h⟩
  · intro known key hknown hkey
    obtain rfl := Option.some.inj hknown
    simp only [List.mem_cons, List.not_mem_nil, not_or] at hkey
    simp only [record]
    split <;> simp_all
  · intro key f d e hf h draft
    simp only [record] at hf
    -- Which fields there are and which places they lead to.
    split at hf
    · obtain rfl := Option.some.inj hf
      exact h.bind _
    · obtain rfl := Option.some.inj hf
      exact h.bind _
    · obtain rfl := Option.some.inj hf
      have hmap := h.bind fun plugins => pure { draft with plugins := some plugins }
      rwa [bind_map_left, bind_map_left] at hmap
    · obtain rfl := Option.some.inj hf
      have hmap := h.bind fun hosts => pure { draft with hosts := some hosts }
      rwa [bind_map_left, bind_map_left] at hmap
    · cases hf

end Structs

/-- What all structs and all maps make the same of is the same at every place. -/
theorem Place.same_of {p : Place} {d e : Document}
    (hstruct : ∀ {φ δ α : Type} [DecidableEq φ] {r : Record φ δ α}, Describes p r →
      Alike (r.read .ignored d) (r.read .ignored e))
    (hmap : ∀ {α : Type} {read : Document → Read α}, p.known = none →
      (∀ {key : String} {x y : Document}, (p.under key).Same x y → Alike (read x) (read y)) →
      Alike (NameMap.ofList <$> Schema.map read d) (NameMap.ofList <$> Schema.map read e))
    (hvalue : p = .value → SameValue d e) : p.Same d e := by
  -- The structs are told by what describes them, the maps by what stands under their keys.
  cases p with
  | config => exact hstruct config_describes
  | about => exact hstruct about_describes
  | settings => exact hstruct settings_describes
  | plugins => exact hmap rfl fun h => h
  | plugin => exact hstruct plugin_describes
  | hosts => exact hmap rfl fun h => h
  | host => exact hstruct host_describes
  | value => exact hvalue rfl

/-- A change leaves what is decoded as it is.  The induction is on the way down to the
    place of the change. -/
theorem Edit.same {p : Place} {d e : Document} (h : Edit p d e) (hd : d.IsTree) :
    p.Same d e := by
  induction h with
  | reorder p hperm =>
    refine p.same_of (fun hr => hr.lawful.read_alike_of_perm .ignored hperm) ?_
      fun _ => sameValue_table _ _
    intro α read _ _
    exact Schema.map_alike_of_perm read hperm (Document.isTree_table_iff.1 hd).1
  | add p before after hknown hkey _ hvalue =>
    refine p.same_of ?_ ?_ ?_
    · intro φ δ α _ r hr
      have hpassed := Record.read_alike_of_unknown (hr.unknown hknown hkey) hvalue.isWhole .ignored
        before after
      exact hpassed.symm
    · intro α read hnone
      rw [hnone] at hknown
      cases hknown
    · rintro rfl
      cases hknown
  | rename before after d =>
    exact Record.read_alike_of_take (r := PluginEntry.record) (x := ("md5", d)) (y := ("hash", d))
      (fun _ => rfl) .ignored before after
  | @entry p before after key d e h ih =>
    have hdTree := (isTree_table_middle_iff.1 hd).1
    have hsame := ih hdTree
    -- An unknown key is passed over by both, for both are without faults.
    have hwhole : d.isWhole = e.isWhole := by
      rw [hdTree.isWhole, (h.isTree_iff.1 hdTree).isWhole]
    refine p.same_of ?_ ?_ fun _ => sameValue_table _ _
    · intro φ δ α _ r hr
      refine Record.read_alike_of_take ?_ .ignored before after
      exact Record.take_eq_of_alike hwhole fun f draft hf => hr.entry hf hsame draft
    · intro α read _ hread
      exact (Schema.map_alike_of_entry before after key (hread hsame)).map _
  | item p hp before after h ih =>
    have hsame := ih (Document.isTree_list_iff.1 hd _ (by simp))
    refine p.same_of ?_ (fun _ _ => rfl) fun _ => hsame.item before after
    intro φ δ α _ r hr
    exact Record.read_alike_of_item (hr.item hp hsame) before after

theorem Edited.alike {d e : Document} (h : Edited d e) :
    (d.IsTree ↔ e.IsTree) ∧ (d.IsTree → Alike (ofDocument d) (ofDocument e)) := by
  induction h with
  | rel d e h => exact ⟨h.isTree_iff, h.same⟩
  | refl d => exact ⟨Iff.rfl, fun _ => Alike.refl _⟩
  | symm d e _ ih => exact ⟨ih.1.symm, fun he => (ih.2 (ih.1.2 he)).symm⟩
  | trans d e f _ _ ih₁ ih₂ =>
    exact ⟨ih₁.1.trans ih₂.1, fun hd => (ih₁.2 hd).trans (ih₂.2 (ih₁.1.1 hd))⟩

/-! ## Texts, and two names for one digest -/

theorem ofText_alike {s t : String} (h : Alike (parse s) (parse t)) :
    Alike (ofText s) (ofText t) := by
  have hparse : ∀ u, (ofText u).toOption = (parse u).toOption := by
    intro u
    rw [ofText]
    cases parse u <;> rfl
  rw [Alike, hparse, hparse, h]

/-- A plugin that gives its digest twice spoils the document. -/
theorem ofDocument_of_both {root plugins entry : List (String × Document)} {name : String}
    {d e : Document} (hplugins : ("plugins", table plugins) ∈ root)
    (hentry : (name, table entry) ∈ plugins) (hd : ("md5", d) ∈ entry) (he : ("hash", e) ∈ entry) :
    (ofDocument (table root)).toOption = none := by
  have hplugin : (PluginEntry.record.read .ignored (table entry)).toOption = none :=
    PluginEntry.record_lawful.read_of_both .ignored hd he (by simp) rfl rfl
  have hmap := Schema.toOption_map_of_mem hentry hplugin
  refine Record.toOption_read_of_mem .ignored hplugins rfl fun draft => ?_
  show (Schema.map (PluginEntry.record.read .ignored) (table plugins) >>= _).toOption = none
  rw [toOption_bind, hmap, Option.bind_none]

/-- Neither the order of keys nor a key that no struct knows is seen in the configuration, nor
    is the name that a plugin gives its digest by; but it gives it once. -/
theorem edits_ignored :
    (∀ {d e : Document}, d.IsTree → Edited d e →
      e.IsTree ∧ Alike (ofDocument d) (ofDocument e)) ∧
    (∀ {s t : String} {d e : Document}, Toml.document? s = some d → Toml.document? t = some e →
      Edited d e → Alike (ofText s) (ofText t)) ∧
    (∀ {root plugins entry : List (String × Document)} {name : String} {d e : Document},
      ("plugins", table plugins) ∈ root → (name, table entry) ∈ plugins →
      ("md5", d) ∈ entry → ("hash", e) ∈ entry →
      ∃ problem, ofDocument (table root) = .error problem) := by
  refine ⟨?_, ?_, ?_⟩
  · intro d e hd h
    exact ⟨h.alike.1.1 hd, h.alike.2 hd⟩
  · intro s t d e hs ht h
    have hdecoded := h.alike.2 (Toml.isTree_of_document? hs)
    apply ofText_alike
    simp only [parse, Toml.readAs, hs, ht]
    exact hdecoded
  · intro root plugins entry name d e hplugins hentry hd he
    exact toOption_eq_none_iff.1 (ofDocument_of_both hplugins hentry hd he)

/-- The keys of a small plugin, with the name by which it gives its digest. -/
def smallPlugin (digestKey : String) : List (String × Document) :=
  [(digestKey, .text "00"), ("exec", .text "run"), ("exec_file", .text "f"),
    ("protocol_type", .text "rest")]

/-- A document with one plugin. -/
def onePlugin (entry : List (String × Document)) : Document :=
  table [("plugins", table [("p", table entry)])]

/-- The same with a title, which nothing knows. -/
def titledPlugin (entry : List (String × Document)) : Document :=
  table [("title", .list [.int 1]), ("plugins", table [("p", table entry)])]

theorem edited_smallPlugin :
    Edited (onePlugin (smallPlugin "md5").reverse) (titledPlugin (smallPlugin "hash")) := by
  have hplugin : ∀ {es fs : List (String × Document)}, Edit .plugin (table es) (table fs) →
      Edited (onePlugin es) (onePlugin fs) :=
    fun h => .rel _ _ (.entry .config [] [] "plugins" (.entry .plugins [] [] "p" h))
  have hreorder : Edited (onePlugin (smallPlugin "md5").reverse) (onePlugin (smallPlugin "md5")) :=
    hplugin (.reorder .plugin (List.reverse_perm _))
  have hrename : Edited (onePlugin (smallPlugin "md5")) (onePlugin (smallPlugin "hash")) :=
    hplugin (.rename [] _ (.text "00") (by decide))
  have htitle : (Document.list [.int 1]).IsTree :=
    Document.isTree_list_iff.2 (List.forall_mem_singleton.2 (.int 1))
  have hadd : Edited (onePlugin (smallPlugin "hash")) (titledPlugin (smallPlugin "hash")) :=
    .rel _ _ (.add .config [] _ rfl (by decide) (by decide) htitle)
  exact .trans _ _ _ hreorder (.trans _ _ _ hrename hadd)

theorem isTree_onePlugin : (onePlugin (smallPlugin "md5").reverse).IsTree := by
  have hentry : (table (smallPlugin "md5").reverse).IsTree := by
    refine Document.isTree_table_iff.2 ⟨by decide, ?_⟩
    simp only [smallPlugin, List.reverse_cons, List.reverse_nil, List.nil_append, List.cons_append,
      List.forall_mem_cons, List.not_mem_nil, IsEmpty.forall_iff, implies_true, and_true]
    exact ⟨.text _, .text _, .text _, .text _⟩
  have hplugins : (table [("p", table (smallPlugin "md5").reverse)]).IsTree :=
    Document.isTree_table_iff.2 ⟨List.nodup_singleton _, List.forall_mem_singleton.2 hentry⟩
  exact Document.isTree_table_iff.2 ⟨List.nodup_singleton _, List.forall_mem_singleton.2 hplugins⟩

/-- A plugin that was rewritten is decoded as before, a text may begin with anything unknown, and
    a second digest is refused. -/
theorem small_edits_ignored :
    (((ofDocument (onePlugin (smallPlugin "md5").reverse)).toOption.bind
        (·.plugins.get? "p")).map (·.digest) = some "00" ∧
      Alike (ofDocument (onePlugin (smallPlugin "md5").reverse))
        (ofDocument (titledPlugin (smallPlugin "hash")))) ∧
    Alike (ofText "") (ofText "a=1") ∧
    ∃ problem, ofDocument (onePlugin (("hash", .text "00") :: smallPlugin "md5"))
      = .error problem := by
  obtain ⟨htrees, htexts, hboth⟩ := edits_ignored
  refine ⟨⟨by rfl, (htrees isTree_onePlugin edited_smallPlugin).2⟩, ?_, ?_⟩
  · have hadd : Edit .config (table []) (table [("a", .int 1)]) :=
      .add .config [] [] rfl (by decide) (by decide) (.int 1)
    exact htexts rfl rfl (.rel _ _ hadd)
  · exact hboth List.mem_cons_self List.mem_cons_self (.tail _ List.mem_cons_self)
      List.mem_cons_self

end Config
end PluginHost
