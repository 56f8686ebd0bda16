/-
  PluginHost.Proofs.Installation

  What an installation comes to, exactly.  A host may use the plugins that it lists
  and the configuration defines (`Offers`), as far as their files are there with the
  digests declared (`Installer.Verifies`).

    * `get?_allowed_iff`: which plugins are looked at, whatever the list repeats or
      misnames.
    * `get?_survivors_iff`, `entries_located`: one plugin after another is inspected by
      itself, so that what is wrong with one excludes no other one.
    * `install_exact`: both together, over every configuration and storage.
-/
import Mathlib.Data.List.Forall2
import PluginHost.Proofs.Authorization
import PluginHost.Proofs.Text.Order

namespace PluginHost

/-- A configuration offers a plugin to a host: the host lists it, and it is defined
    as `e`. -/
structure Config.Offers (config : Config) (host name : String) (e : Config.PluginEntry) : Prop where
  listed : ∃ entry, config.hosts.get? host = some entry ∧ name ∈ entry.plugins
  defined : config.plugins.get? name = some e

/-- Names in the order of their bytes, without repetition. -/
def InByteOrder (names : List String) : Prop :=
  names.Pairwise fun a b => Utf8.encode a < Utf8.encode b

theorem NameMap.inByteOrder_names {α : Type} (m : NameMap α) : InByteOrder m.names := by
  refine m.pairwise_names.imp ?_
  intro a b hlt
  exact Utf8.encode_lt_encode_iff.2 hlt

namespace Installer

variable {i : Installer} {storage : Storage} {config : Config} {name : String} {p : PluginMeta}

/-- The file of a plugin is there, and the check finds the digest declared. -/
structure Verifies (i : Installer) (storage : Storage) (e : Config.PluginEntry) : Prop where
  present : storage.isPresent e.file = true
  verified : ∃ d, i.check storage e.file = .ok d ∧ sameDigest d e.digest = true

/-! ## The plugins looked at -/

/-- A list of names may repeat one: its definition is the same each time. -/
theorem get?_allowed_iff {host : String} :
    (allowed config host).get? name = some p ↔
      ∃ e, config.Offers host name e ∧ p = PluginMeta.ofEntry e := by
  constructor
  · intro h
    obtain ⟨entry, e, hentry, hlisted, he, hp⟩ := of_get?_allowed h
    exact ⟨e, ⟨⟨entry, hentry, hlisted⟩, he⟩, hp⟩
  · rintro ⟨e, ⟨⟨entry, hentry, hlisted⟩, he⟩, rfl⟩
    unfold allowed
    rw [hentry]
    apply NameMap.get?_ofList_of_forall_eq
    · refine List.mem_filterMap.2 ⟨name, hlisted, ?_⟩
      rw [he]
      rfl
    · intro q hq
      obtain ⟨n, -, hn⟩ := List.mem_filterMap.1 hq
      obtain ⟨e', he', heq⟩ := Option.map_eq_some_iff.1 hn
      obtain ⟨rfl, rfl⟩ := Prod.mk.inj heq
      have hsame : e' = e := Option.some.inj (he'.symm.trans he)
      rw [hsame]

/-! ## One plugin -/

theorem accepts_ofEntry_iff {e : Config.PluginEntry} :
    i.accepts storage (PluginMeta.ofEntry e) = true ↔ i.Verifies storage e := by
  rw [accepts_iff]
  exact ⟨fun ⟨hpresent, hverified⟩ => ⟨hpresent, hverified⟩,
    fun ⟨hpresent, hverified⟩ => ⟨hpresent, hverified⟩⟩

/-! ## All plugins -/

/-- The plugins whose files are there. -/
def located (storage : Storage) (plugins : PluginSet) : PluginSet :=
  plugins.filterMap fun _ p => if storage.isPresent p.file then some p else none

theorem get?_located_iff {plugins : PluginSet} :
    (located storage plugins).get? name = some p ↔
      plugins.get? name = some p ∧ storage.isPresent p.file = true := by
  rw [located, NameMap.get?_filterMap_eq_some_iff]
  simp

theorem get?_survivors_iff {host : String} :
    (i.survivors storage (allowed config host)).get? name = some p ↔
      ∃ e, config.Offers host name e ∧ i.Verifies storage e ∧ p = PluginMeta.ofEntry e := by
  have hkept : (i.survivors storage (allowed config host)).get? name = some p ↔
      (allowed config host).get? name = some p ∧ i.accepts storage p = true := by
    rw [survivors, NameMap.get?_filterMap_eq_some_iff]
    simp
  rw [hkept, get?_allowed_iff]
  constructor
  · rintro ⟨⟨e, hoffers, rfl⟩, haccepted⟩
    exact ⟨e, hoffers, accepts_ofEntry_iff.1 haccepted, rfl⟩
  · rintro ⟨e, hoffers, hverifies, rfl⟩
    exact ⟨⟨e, hoffers, rfl⟩, accepts_ofEntry_iff.2 hverifies⟩

theorem entries_located (storage : Storage) (plugins : PluginSet) :
    (located storage plugins).entries = found storage plugins.entries :=
  NameMap.entries_filterMap_ite plugins fun p => storage.isPresent p.file

/-! ## The installation -/

/-- What an installation comes to that does all it should, and nothing else. -/
structure Exact (i : Installer) (storage : Storage) (config : Config) (done : Installation) :
    Prop where
  /-- It fails if no plugin survives; otherwise the survivors are installed, each as
      it is defined, and no other plugin. -/
  outcome :
    (done.outcome = .error .noPluginsAvailable ∧
      ∀ name e, config.Offers i.host name e → ¬ i.Verifies storage e) ∨
    ∃ plugins, done.outcome = .ok plugins ∧ InByteOrder plugins.names ∧ plugins.names ≠ [] ∧
      ∀ name p, plugins.get? name = some p ↔
        ∃ e, config.Offers i.host name e ∧ i.Verifies storage e ∧ p = PluginMeta.ofEntry e
  /-- One digest is asked for each plugin offered whose file is there, in the order of
      their names. -/
  asked : ∃ names, InByteOrder names ∧
    (∀ name, name ∈ names ↔
      ∃ e, config.Offers i.host name e ∧ storage.isPresent e.file = true) ∧
    List.Forall₂ (fun name file => ∃ e, config.plugins.get? name = some e ∧ file = e.file)
      names done.asked

/-- Nothing survives, or the survivors are the plugins offered and verified. -/
theorem survivors_exact (i : Installer) (storage : Storage) (config : Config) :
    let kept := i.survivors storage (allowed config i.host)
    (kept.isEmpty = true ∧ ∀ name e, config.Offers i.host name e → ¬ i.Verifies storage e) ∨
    (kept.isEmpty = false ∧ kept.names ≠ []) := by
  intro kept
  cases hempty : kept.isEmpty with
  | true =>
    refine .inl ⟨rfl, ?_⟩
    intro name e hoffers hverifies
    have hnone : kept.get? name = none := NameMap.isEmpty_eq_true_iff.1 hempty name
    have hsome : kept.get? name = some (PluginMeta.ofEntry e) :=
      get?_survivors_iff.2 ⟨e, hoffers, hverifies, rfl⟩
    rw [hnone] at hsome
    cases hsome
  | false =>
    refine .inr ⟨rfl, ?_⟩
    intro hnil
    have hentries : kept.entries = [] := List.map_eq_nil_iff.1 hnil
    rw [NameMap.isEmpty, hentries] at hempty
    cases hempty

/-- The plugins whose files are there are named in order, each one beside its file. -/
theorem located_exact (config : Config) (host : String) (storage : Storage) :
    let found := located storage (allowed config host)
    (∀ name, name ∈ found.names ↔
      ∃ e, config.Offers host name e ∧ storage.isPresent e.file = true) ∧
    List.Forall₂ (fun name file => ∃ e, config.plugins.get? name = some e ∧ file = e.file)
      found.names (found.entries.map fun e => e.2.file) := by
  intro found
  constructor
  · intro name
    rw [NameMap.mem_names_iff]
    constructor
    · rintro ⟨p, hp⟩
      obtain ⟨hallowed, hpresent⟩ := get?_located_iff.1 hp
      obtain ⟨e, hoffers, rfl⟩ := get?_allowed_iff.1 hallowed
      exact ⟨e, hoffers, hpresent⟩
    · rintro ⟨e, hoffers, hpresent⟩
      have hallowed := get?_allowed_iff.2 ⟨e, hoffers, rfl⟩
      exact ⟨_, get?_located_iff.2 ⟨hallowed, hpresent⟩⟩
  · rw [NameMap.names, List.forall₂_map_left_iff, List.forall₂_map_right_iff, List.forall₂_same]
    rintro ⟨name, p⟩ hentry
    have hallowed := (get?_located_iff.1 (NameMap.get?_eq_some_iff.2 hentry)).1
    obtain ⟨e, hoffers, rfl⟩ := get?_allowed_iff.1 hallowed
    exact ⟨e, hoffers.defined, rfl⟩

/-- What the installation of the plugins that a configuration allows comes to. -/
theorem install_of_config (storage : Storage) (h : i.config = some config) :
    i.install storage i.resolve =
      ⟨if (i.survivors storage (allowed config i.host)).isEmpty then .error .noPluginsAvailable
        else .ok (i.survivors storage (allowed config i.host)),
        (located storage (allowed config i.host)).entries.map fun e => e.2.file⟩ := by
  rw [resolve, h, Option.map_some, install_some, entries_located]

/-- The plugins of an installation that succeeds. -/
theorem get?_of_install {plugins : PluginSet} (h : i.config = some config)
    (hok : (i.install storage i.resolve).outcome = .ok plugins) :
    plugins.get? name = some p ↔
      ∃ e, config.Offers i.host name e ∧ i.Verifies storage e ∧ p = PluginMeta.ofEntry e := by
  rw [install_of_config storage h] at hok
  dsimp only at hok
  split at hok
  · cases hok
  · rw [← Except.ok.inj hok]
    exact get?_survivors_iff

/-- Installing what the configuration allows a host is exact, whatever the host lists and
    whatever is wrong with single plugins.  Without a configuration nothing is looked
    at. -/
theorem install_exact (i : Installer) (storage : Storage) :
    (i.config = none → i.install storage i.resolve = ⟨.error .emptyPlugins, []⟩) ∧
    ∀ config, i.config = some config → Exact i storage config (i.install storage i.resolve) := by
  constructor
  · intro hnone
    rw [resolve, hnone]
    rfl
  intro config hsome
  rw [install_of_config storage hsome]
  constructor
  · rcases survivors_exact i storage config with ⟨hempty, hnone⟩ | ⟨hempty, hnames⟩
    · rw [hempty]
      exact .inl ⟨rfl, hnone⟩
    · rw [hempty]
      exact .inr ⟨_, rfl, NameMap.inByteOrder_names _, hnames, fun _ _ => get?_survivors_iff⟩
  · have hlocated := located_exact config i.host storage
    exact ⟨_, NameMap.inByteOrder_names _, hlocated.1, hlocated.2⟩

/-! ## A host with one good plugin -/

/-- Of the plugins `a` and `b`, which share a file, one has its digest, and the file of `c`
    cannot be read.  The host lists one of them twice, and one that is not defined. -/
def mixedConfig : Config where
  plugins := .ofList [
    ("a", { digest := "0aF", command := "run", file := "f", protocol := "rest" }),
    ("b", { digest := "0ae", command := "run", file := "f", protocol := "rest" }),
    ("c", { digest := "0af", command := "run", file := "g", protocol := "rest" })]
  hosts := .ofList [("host", { plugins := ["c", "b", "a", "d", "b"] })]

def mixedHost : Installer where
  host := "host"
  config := some mixedConfig
  check := fun _ file => if file = "g" then .error .permissionDenied else .ok "0Af"

def mixedStorage : Storage where
  known := [("f", .file []), ("g", .file [])]

theorem mixedHost_install :
    Exact mixedHost mixedStorage mixedConfig (mixedHost.install mixedStorage mixedHost.resolve) ∧
    (mixedHost.install mixedStorage mixedHost.resolve).outcome.toOption.map NameMap.names
      = some ["a"] ∧
    (mixedHost.install mixedStorage mixedHost.resolve).asked = ["f", "f", "g"] := by
  have hexact := (install_exact mixedHost mixedStorage).2 mixedConfig rfl
  exact ⟨hexact, by decide +kernel, by decide +kernel⟩

end Installer
end PluginHost
