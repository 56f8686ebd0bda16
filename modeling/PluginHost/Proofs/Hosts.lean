/-
  PluginHost.Proofs.Hosts

  Which host, and which container, is meant by a name.  A registry looks a host up
  by the first one of its name, while it keeps the container of the last one.  No
  setup changes that: `Serves` says what stays of a list of hosts, and it is all
  that later modules use of the way in which a registry was made.
-/
import Mathlib.Data.List.Nodup
import PluginHost.CommandLine.Serve
import PluginHost.Proofs.Calls

namespace PluginHost

/-- A setup changes no pool. -/
theorem Container.setup_pool (c : Container) (storage : Storage) :
    (c.setup storage).container.pool = c.pool := by
  rcases c.setup_cases storage with hsame | ⟨plugins, -, -, -, hset⟩
  · rw [hsame]
  · rw [hset]

namespace Registry

variable {hosts : List Host} {policy : Retry.Policy} {r : Registry} {name plugin : String}

/-! ## First and last -/

/-- The first host of a name: the one that is looked up. -/
def firstHost? (hosts : List Host) (name : String) : Option Host :=
  hosts.find? fun h => h.name = name

/-- The last host of a name: the one whose container is kept. -/
def lastHost? (hosts : List Host) (name : String) : Option Host :=
  hosts.reverse.find? fun h => h.name = name

theorem lastHost?_isSome_iff :
    (lastHost? hosts name).isSome = true ↔ ∃ h ∈ hosts, h.name = name := by
  simp [lastHost?]

theorem mem_of_firstHost? {h : Host} (hh : firstHost? hosts name = some h) :
    h ∈ hosts ∧ h.name = name :=
  ⟨List.mem_of_find?_eq_some hh, by simpa using List.find?_some hh⟩

theorem mem_of_lastHost? {h : Host} (hh : lastHost? hosts name = some h) :
    h ∈ hosts ∧ h.name = name :=
  ⟨by simpa using List.mem_of_find?_eq_some hh, by simpa using List.find?_some hh⟩

/-- With names that differ the two are the same. -/
theorem firstHost?_eq_lastHost? (hnames : (hosts.map (·.name)).Nodup) (name : String) :
    firstHost? hosts name = lastHost? hosts name := by
  cases hl : lastHost? hosts name with
  | none =>
    have hno : ¬ ∃ h ∈ hosts, h.name = name := fun hex => by
      have hsome := lastHost?_isSome_iff.2 hex
      rw [hl] at hsome
      cases hsome
    rw [firstHost?, List.find?_eq_none]
    intro h hmem hname
    exact hno ⟨h, hmem, by simpa using hname⟩
  | some last =>
    obtain ⟨hmem, hname⟩ := mem_of_lastHost? hl
    have hsome : (firstHost? hosts name).isSome = true := by
      rw [firstHost?, List.find?_isSome]
      exact ⟨last, hmem, by simpa using hname⟩
    obtain ⟨first, hfirst⟩ := Option.isSome_iff_exists.1 hsome
    obtain ⟨hmem', hname'⟩ := mem_of_firstHost? hfirst
    rw [hfirst, List.inj_on_of_nodup_map hnames hmem' hmem (hname'.trans hname.symm)]

theorem host_eq (r : Registry) (name : String) :
    r.host name = match firstHost? r.hosts name with
      | some h => .ok h
      | none => .error (.hostUnknown name) :=
  rfl

theorem host_eq_ok_iff {h : Host} : r.host name = .ok h ↔ firstHost? r.hosts name = some h := by
  rw [host_eq]
  cases firstHost? r.hosts name <;> simp

/-! ## The containers of a list of hosts -/

theorem get?_containers_ofHosts (hosts : List Host) (policy : Retry.Policy) (name : String) :
    (ofHosts hosts policy).containers.get? name
      = (lastHost? hosts name).map fun h => h.container policy := by
  rw [ofHosts, NameMap.get?_ofList, lastHost?, ← List.map_reverse]
  induction hosts.reverse with
  | nil => rfl
  | cons h hs ih =>
    rw [List.map_cons, List.lookup_cons, List.find?_cons]
    by_cases hn : h.name = name
    · simp [hn]
    · have hne : (name == h.name) = false := by simpa using fun heq => hn heq.symm
      simp [hn, hne, ih]

/-- What a registry of hosts keeps to, whatever is set up. -/
structure Serves (hosts : List Host) (r : Registry) : Prop where
  listed : r.hosts = hosts
  unset : ∀ name c, r.kept name = .ok c → c.installed = false → c.plugins = .empty
  pools : ∀ name, (r.containers.get? name).map (·.pool) = (lastHost? hosts name).map (·.pool)

theorem serves_ofHosts (hosts : List Host) (policy : Retry.Policy) :
    Serves hosts (ofHosts hosts policy) where
  listed := rfl
  unset name c hc _ := by
    rw [kept_eq_ok_iff, get?_containers_ofHosts, Option.map_eq_some_iff] at hc
    obtain ⟨h, -, rfl⟩ := hc
    rfl
  pools name := by
    rw [get?_containers_ofHosts, Option.map_map]
    rfl

theorem Serves.setup (h : Serves hosts r) (storage : Storage) (name : String) :
    Serves hosts (r.setup storage name).2 := by
  unfold Registry.setup
  cases hc : r.kept name with
  | error e => exact h
  | ok c =>
    refine ⟨h.listed, fun other d hd hnot => ?_, fun other => ?_⟩
    · rw [kept_setContainer] at hd
      by_cases hn : other = name
      · rw [if_pos hn] at hd
        obtain rfl := Except.ok.inj hd
        rcases c.setup_cases storage with hsame | ⟨plugins, -, -, -, hset⟩
        · rw [hsame] at hnot ⊢
          exact h.unset name c hc hnot
        · rw [hset] at hnot
          cases hnot
      · rw [if_neg hn] at hd
        exact h.unset other d hd hnot
    simp only [setContainer, NameMap.get?_insert]
    by_cases hn : other = name
    · rw [if_pos hn, Option.map_some, Container.setup_pool, hn, ← h.pools, kept_eq_ok_iff.1 hc]
      rfl
    · rw [if_neg hn, h.pools]

theorem Serves.setupEach (h : Serves hosts r) (storage : Storage) (names : List String) :
    Serves hosts (r.setupEach storage names).2 := by
  induction names generalizing r with
  | nil => exact h
  | cons name names ih =>
    have hrest := ih (h.setup storage name)
    rw [Registry.setupEach]
    dsimp only
    split <;> exact hrest

theorem Serves.install {r' : Registry} (h : Serves hosts r) {storage : Storage}
    (hr : r.install storage = .ok r') : Serves hosts r' := by
  have hrest := h.setupEach storage (r.hosts.map (·.name))
  unfold Registry.install at hr
  split at hr
  · rename_i r'' heq
    rw [heq, Except.ok.inj hr] at hrest
    exact hrest
  · cases hr

/-- A host that is known has a container, and no other host has. -/
theorem Serves.exists_kept_iff (h : Serves hosts r) :
    (∃ c, r.kept name = .ok c) ↔ ∃ x ∈ hosts, x.name = name := by
  rw [← lastHost?_isSome_iff, ← Option.isSome_map (f := fun x : Host => x.pool), ← h.pools,
    Option.isSome_map, Option.isSome_iff_exists]
  simp only [kept_eq_ok_iff]

/-- The pool of a container is that of the last host of its name. -/
theorem Serves.pool_of_kept (h : Serves hosts r) {c : Container} (hc : r.kept name = .ok c) :
    ∃ last, lastHost? hosts name = some last ∧ last.pool = c.pool := by
  have hpool := h.pools name
  rw [kept_eq_ok_iff.1 hc, Option.map_some] at hpool
  exact Option.map_eq_some_iff.1 hpool.symm

/-- With names that differ, processes are looked for where they are started. -/
theorem Serves.pool_eq (h : Serves hosts r) (hnames : (hosts.map (·.name)).Nodup) {x : Host}
    {c : Container} (hx : r.host name = .ok x) (hc : r.container name = .ok c) :
    x.pool = c.pool := by
  obtain ⟨last, hlast, hpool⟩ := h.pool_of_kept (container_eq_ok_iff.1 hc).2
  rw [host_eq_ok_iff, h.listed, firstHost?_eq_lastHost? hnames, hlast] at hx
  rw [← Option.some.inj hx, hpool]

/-- The container of a host that is known. -/
theorem Serves.exists_container (h : Serves hosts r) {x : Host} (hx : r.host name = .ok x) :
    ∃ c, r.container name = .ok c := by
  have hmem := mem_of_firstHost? (host_eq_ok_iff.1 hx)
  rw [h.listed] at hmem
  obtain ⟨c, hc⟩ := h.exists_kept_iff.2 ⟨x, hmem⟩
  exact ⟨c, container_eq_ok_iff.2 ⟨⟨x, hx⟩, hc⟩⟩

end Registry

/-! ## The hosts of a command -/

namespace CommandLine

theorem names_makeHosts (config : Config) (address : String) (names : List String) :
    (makeHosts config address names).map (·.name) = names := by
  rw [makeHosts, List.map_map]
  exact List.zipIdx_map_fst 0 names

/-- Every host has a pool of its own. -/
theorem pools_makeHosts (config : Config) (address : String) (names : List String) :
    (makeHosts config address names).map (·.pool) = List.range names.length := by
  have hsnd : names.zipIdx.map Prod.snd = List.range names.length := by
    rw [List.zipIdx_map_snd, List.range_eq_range']
  rw [makeHosts, List.map_map, ← hsnd]
  rfl

end CommandLine
end PluginHost
