/-
  PluginHost.Proofs.Forgetting

  When killing forgets a process.  A killing looks up a process, triggers its
  switch, and then takes out whatever stands under the name; a killing of all
  empties the table at its end, whatever stands in it.

  What is taken out may have been entered only meanwhile.  That is harmless exactly
  if some killing has told it and is about to take it out as well (`Floor.Clean`).
  So entries leave untold, and processes that were reported as running are lost, in
  just those runs that have an act which is not clean
  (`forgets_nothing_iff_allClean`).  What is lost stays lost (`lost_for_good`).
-/
import PluginHost.Proofs.Interleaving

namespace PluginHost
namespace Interleaving

variable {i : Nat} {s : System} {f : Floor}

/-! ## One act -/

/-- An act takes out only what some killing has told and is about to take out. -/
def Floor.Clean (i : Nat) (f : Floor) (a : Act) : Prop :=
  ∀ name p, f.TakesOut a name → (f.system.table i).get? name = some p → f.IsLeaving name p

/-- Every entry that an act takes out has been told to stop. -/
def Floor.TellsFirst (i : Nat) (f : Floor) (a : Act) : Prop :=
  ∀ name p, (f.system.table i).get? name = some p →
    ((f.perform i a).system.table i).get? name ≠ some p → (f.perform i a).IsTold p

/-- Every process that was reported is an entry or has been told to stop. -/
def Floor.KeepsAll (i : Nat) (f : Floor) : Prop :=
  ∀ p ∈ f.reported, f.IsEntered i p ∨ f.IsTold p

/-- What is about to leave was told. -/
theorem Inv.told_of_isLeaving (inv : Inv i f) {name : String} {p : PluginProcess}
    (h : f.IsLeaving name p) : f.IsTold p := by
  obtain ⟨k, left, hk⟩ := h
  exact (inv.stages k _ hk).2

theorem Inv.tellsFirst_iff_clean (inv : Inv i f) {a : Act} (ha : f.Admits i a) :
    f.TellsFirst i a ↔ f.Clean i a := by
  constructor
  · -- Taking out tells nobody, so that the entry was told before.
    intro h name p hout hp
    have htold : (f.perform i a).IsTold p := by
      refine h name p hp ?_
      rw [gone_of_takesOut hout]
      exact nofun
    exact inv.leaving name p hp ((isTold_of_takesOut hout p).1 htold)
  · intro hclean name p hp hgone
    by_cases hout : f.TakesOut a name
    · exact (isTold_of_takesOut hout p).2 (inv.told_of_isLeaving (hclean name p hout hp))
    · exact absurd ((inv.entry_iff ha).2 (Or.inl ⟨hout, hp⟩)) hgone

/-- A clean act loses nothing. -/
theorem Inv.keepsAll_of_clean (inv : Inv i f) {a : Act} (ha : f.Admits i a) (hclean : f.Clean i a)
    (h : f.KeepsAll i) : (f.perform i a).KeepsAll i := by
  intro p hp
  rcases reported_cases hp with hold | hnew
  · rcases h p hold with hent | htold
    · by_cases hout : f.TakesOut a p.name
      · have hleaving := hclean p.name p hout hent
        exact Or.inr ((isTold_of_takesOut hout p).2 (inv.told_of_isLeaving hleaving))
      · exact Or.inl ((inv.entry_iff ha).2 (Or.inl ⟨hout, hent⟩))
    · exact Or.inr ((inv.isTold_iff ha (inv.reported p hold)).2 (Or.inl htold))
  · exact Or.inl ((inv.entry_iff ha).2 (Or.inr ⟨hnew, rfl⟩))

/-- An act that is not clean loses a process. -/
theorem Inv.clean_of_keepsAll (inv : Inv i f) {a : Act} (h : (f.perform i a).KeepsAll i) :
    f.Clean i a := by
  intro name p hout hp
  obtain ⟨hname, hrep⟩ := inv.entered name p hp
  rcases h p (reported_mono i hrep) with hent | htold
  · -- It has just been taken out.
    rw [Floor.IsEntered, hname, gone_of_takesOut hout] at hent
    cases hent
  · exact inv.leaving name p hp ((isTold_of_takesOut hout p).1 htold)

/-! ## Every run -/

theorem Legal.suffix {acts earlier : List Act} (h : Legal i s acts) (hs : earlier <:+ acts) :
    Legal i s earlier := by
  induction acts with
  | nil => rwa [List.suffix_nil.1 hs]
  | cons a rest ih =>
    rcases List.suffix_cons_iff.1 hs with rfl | hrest
    · exact h
    · exact ih h.1 hrest

/-- All acts of a run are clean. -/
def AllClean (i : Nat) (s : System) (acts : List Act) : Prop :=
  ∀ a earlier, a :: earlier <:+ acts → (after i s earlier).Clean i a

theorem keepsAll_of_allClean {acts : List Act} (h : Legal i s acts) (hclean : AllClean i s acts) :
    (after i s acts).KeepsAll i := by
  induction acts with
  | nil => exact fun p hp => by cases hp
  | cons a earlier ih =>
    -- The earlier acts of the run are those of a shorter one.
    have hearlier : AllClean i s earlier := fun b rest hs =>
      hclean b rest (hs.trans (List.suffix_cons a earlier))
    exact h.1.inv.keepsAll_of_clean h.2 (hclean a earlier (List.suffix_refl _)) (ih h.1 hearlier)

/-- In a run every entry that leaves was told, and no process that was reported is
    ever lost, exactly if all acts are clean. -/
theorem forgets_nothing_iff_allClean {acts : List Act} (h : Legal i s acts) :
    ((∀ a earlier, a :: earlier <:+ acts → (after i s earlier).TellsFirst i a) ↔
      AllClean i s acts) ∧
    ((∀ earlier, earlier <:+ acts → (after i s earlier).KeepsAll i) ↔ AllClean i s acts) := by
  -- Each act of the run is looked at where it happens, which is a legal run as well.
  refine ⟨⟨fun htells a earlier hs => ?_, fun hclean a earlier hs => ?_⟩,
    ⟨fun hkeeps a earlier hs => ?_, fun hclean earlier hs => ?_⟩⟩
  · have hlegal := h.suffix hs
    exact (hlegal.1.inv.tellsFirst_iff_clean hlegal.2).1 (htells a earlier hs)
  · have hlegal := h.suffix hs
    exact (hlegal.1.inv.tellsFirst_iff_clean hlegal.2).2 (hclean a earlier hs)
  · have hlegal := h.suffix hs
    exact hlegal.1.inv.clean_of_keepsAll (hkeeps (a :: earlier) hs)
  · exact keepsAll_of_allClean (h.suffix hs) fun a rest hrest => hclean a rest (hrest.trans hs)

/-! ## Lost for good -/

/-- A process was reported, but it is not the entry of its name, it was not told to
    stop, and no killing has found it in time. -/
structure Floor.IsLost (i : Nat) (f : Floor) (p : PluginProcess) : Prop where
  reported : p ∈ f.reported
  not_entered : ¬ f.IsEntered i p
  not_told : ¬ f.IsTold p
  not_found : ∀ k name left, f.calls k ≠ some (.tell name p left)

/-- A process is found where it stands. -/
theorem tell_cases {a : Act} (ha : f.Admits i a) {k : Nat} {name : String} {p : PluginProcess}
    {left : Option (List String)} (h : (f.perform i a).calls k = some (.tell name p left)) :
    f.calls k = some (.tell name p left) ∨ (f.system.table i).get? name = some p := by
  have hidle : ∀ l, Stage.following l ≠ some (.tell name p left)
    | none => nofun
    | some [] => nofun
    | some (n :: ns) => nofun
  cases a with
  | join j t =>
    simp only [Floor.perform, Floor.put] at h
    split at h
    · rw [Option.some.inj h] at ha
      exact absurd ha.2 (by simp [Stage.IsFirst])
    · exact Or.inl h
  | aside s' => exact Or.inl h
  | go j =>
    cases hj : f.calls j with
    | none =>
      rw [Floor.perform, hj] at h
      exact Or.inl h
    | some t =>
      rw [Floor.perform, hj] at h
      simp only [Floor.go, Floor.put] at h
      split at h
      · cases t with
        | look n l =>
          cases hget : (f.system.table i).get? n with
          | none =>
            rw [Stage.next_look_of_none hget] at h
            exact absurd h (hidle l)
          | some q =>
            rw [Stage.next_look_of_some hget, Option.some.injEq, Stage.tell.injEq] at h
            obtain ⟨rfl, rfl, -⟩ := h
            exact Or.inr hget
        | forget n q l => exact absurd h (hidle l)
        | list => exact absurd h (hidle _)
        | check r =>
          simp only [Stage.next] at h
          split at h <;> cases h
        | await l =>
          cases hfin : (f.system.finishStart l).1 with
          | error e =>
            rw [Stage.next_await_of_error hfin] at h
            cases h
          | ok q =>
            rw [Stage.next_await_of_ok hfin] at h
            cases h
        | enter q =>
          cases hr : f.system.isReady i q.name with
          | true =>
            rw [Stage.next_enter_of_ready hr] at h
            cases h
          | false =>
            rw [Stage.next_enter_of_not_ready hr] at h
            cases h
        | _ => cases h
      · exact Or.inl h

/-- No act finds a lost process again. -/
theorem Inv.isLost (inv : Inv i f) {a : Act} (ha : f.Admits i a) {p : PluginProcess}
    (h : f.IsLost i p) : (f.perform i a).IsLost i p where
  reported := reported_mono i h.reported
  not_entered hent := by
    rcases (inv.entry_iff ha).1 hent with ⟨-, hold⟩ | ⟨⟨k, -, hk, -⟩, -⟩
    · exact h.not_entered hold
    · -- Only a process that was not reported yet is registered.
      exact (inv.isFresh hk rfl).2.1 h.reported
  not_told htold := by
    rcases (inv.isTold_iff ha (inv.reported p h.reported)).1 htold with
      hold | ⟨k, -, ⟨name, left, hk⟩ | hk⟩
    · exact h.not_told hold
    · exact h.not_found k name left hk
    · exact (inv.isFresh hk rfl).2.1 h.reported
  not_found k name left hk := by
    rcases tell_cases ha hk with hold | hget
    · exact h.not_found k name left hold
    · obtain ⟨rfl, -⟩ := inv.entered name p hget
      exact h.not_entered hget

/-- What is lost stays lost, whatever the callers do from then on. -/
theorem lost_for_good {later earlier : List Act} (h : Legal i s (later ++ earlier))
    {p : PluginProcess} (hp : (after i s earlier).IsLost i p) :
    (after i s (later ++ earlier)).IsLost i p := by
  induction later with
  | nil => exact hp
  | cons a rest ih => exact h.1.inv.isLost h.2 (ih h.1)

/-! ## A few callers -/

instance (l : Launch) : Decidable l.IsSwitched :=
  match l with
  | ⟨_, _, _, .error _⟩ => inferInstanceAs (Decidable True)
  | ⟨_, _, _, .ok (.due _ kind)⟩ => inferInstanceAs (Decidable (kind ≠ .none))
  | ⟨_, _, _, .ok (.running p)⟩ => inferInstanceAs (Decidable (p.switch.isSome = true))

instance (t : Stage) : Decidable t.IsFirst :=
  match t with
  | .look _ left => inferInstanceAs (Decidable (left = none))
  | .list | .check _ => inferInstanceAs (Decidable True)
  | .tell .. | .forget .. | .clear | .ask _ | .await _ | .enter _ | .dismiss _ =>
    inferInstanceAs (Decidable False)

/-- A test of what callers can do. -/
def Floor.canDo (i : Nat) (f : Floor) : Act → Bool
  | .join k t => (f.calls k).isNone && decide t.IsFirst
  | .go k =>
    match f.calls k with
    | some (.ask r) => decide (f.system.askRunner i r).1.IsSwitched
    | _ => true
  | .aside _ => false

/-- A test of runs in which nothing happens but the calls. -/
def canRun (i : Nat) (s : System) : List Act → Bool
  | [] => true
  | a :: earlier => canRun i s earlier && (after i s earlier).canDo i a

theorem admits_of_canDo {f : Floor} {a : Act} (h : f.canDo i a = true) : f.Admits i a := by
  cases a with
  | join k t =>
    simp only [Floor.canDo, Bool.and_eq_true, Option.isNone_iff_eq_none, decide_eq_true_eq] at h
    exact h
  | go k =>
    intro r hr
    simp only [Floor.canDo, hr, decide_eq_true_eq] at h
    exact h
  | aside s' => cases h

theorem legal_of_canRun (hi : i < s.pools.length) (ht : s.table i = .empty) {acts : List Act}
    (h : canRun i s acts = true) : Legal i s acts := by
  induction acts with
  | nil => exact ⟨hi, ht⟩
  | cons a earlier ih =>
    rw [canRun, Bool.and_eq_true] at h
    exact ⟨ih h.1, admits_of_canDo h.2⟩

/-- A pool whose runner has two processes at hand. -/
def idle : System where
  pools := [{
    label := "host"
    runner := .prepared [{ outcome := .ok (1, .watched) }, { outcome := .ok (2, .watched) }] }]

/-- The process with switch `id`. -/
def echo (pid id : Nat) : PluginProcess :=
  { name := "echo", pid, switch := some id }

/-- A start, from its beginning to its end. -/
def startActs : List Act :=
  [.join 0 (.check { name := "echo", command := "run", arguments := [], port := 1 }),
    .go 0, .go 0, .go 0, .go 0]

/-- A start, and then a killing. -/
def orderly : List Act :=
  [.go 1, .go 1, .go 1, .join 1 (.look "echo" none)] ++ startActs.reverse

/-- Two killings, and a start that comes to its end between theirs. -/
def overlap : List Act :=
  .go 1 :: startActs.reverse ++ [.go 2, .go 2, .go 2, .join 2 (.look "echo" none),
    .go 1, .go 1, .join 1 (.look "echo" none)] ++ startActs.reverse

/-- A killing of all that has asked for the names when a start comes to its end, and
    has not emptied the table yet. -/
def sweep : List Act :=
  .go 1 :: startActs.reverse ++ [.go 1, .join 1 .list]

theorem AllClean.cons {a : Act} {earlier : List Act} (h : AllClean i s earlier)
    (ha : (after i s earlier).Clean i a) : AllClean i s (a :: earlier) := by
  intro b rest hs
  rcases List.suffix_cons_iff.1 hs with heq | hrest
  · obtain ⟨rfl, rfl⟩ := List.cons.inj heq
    exact ha
  · exact h b rest hrest

/-- To take nothing out is clean. -/
theorem clean_of_takesOut {a : Act} (h : ∀ name, ¬ f.TakesOut a name) : f.Clean i a :=
  fun name _ hout _ => absurd hout (h name)

/-- A run that forgets nothing. -/
theorem orderly_forgets_nothing : Legal 0 idle orderly ∧
    (∀ a earlier, a :: earlier <:+ orderly → (after 0 idle earlier).TellsFirst 0 a) ∧
    (∀ earlier, earlier <:+ orderly → (after 0 idle earlier).KeepsAll 0) := by
  have hlegal : Legal 0 idle orderly := legal_of_canRun (by decide) rfl (by decide +kernel)
  have hnil : AllClean 0 idle [] := fun a earlier hs => by cases List.suffix_nil.1 hs
  have hearlier : AllClean 0 idle orderly.tail := by
    refine (((((((hnil.cons ?_).cons ?_).cons ?_).cons ?_).cons ?_).cons ?_).cons ?_).cons ?_
    all_goals
      refine clean_of_takesOut fun name => ?_
      rintro ⟨k, hk, ⟨q, left, hf⟩ | hf⟩
      · cases hk <;> cases hf
      · cases hk <;> cases hf
  have hclean : AllClean 0 idle orderly := by
    refine hearlier.cons fun name p hout hp => ?_
    obtain ⟨k, hk, ⟨q, left, hf⟩ | hf⟩ := hout
    · obtain rfl := Act.go.inj hk
      obtain ⟨rfl, rfl, rfl⟩ := Stage.forget.inj (Option.some.inj hf)
      exact ⟨1, none, by rw [← Option.some.inj hp]; rfl⟩
    · obtain rfl := Act.go.inj hk
      cases hf
  have hiff := forgets_nothing_iff_allClean hlegal
  exact ⟨hlegal, hiff.1.2 hclean, hiff.2.2 hclean⟩

/-- When two killings overlap, or one of all and a start, a process that was reported
    as running may be lost.  All calls have returned then, and no later one finds
    the process. -/
theorem overlapping_calls_lose_a_process :
    (Legal 0 idle overlap ∧ (∀ k, (after 0 idle overlap).calls k = none) ∧
      ¬ (after 0 idle overlap.tail).TellsFirst 0 (.go 1) ∧
      ∀ later, Legal 0 idle (later ++ overlap) →
        (after 0 idle (later ++ overlap)).IsLost 0 (echo 2 1)) ∧
    (Legal 0 idle sweep ∧ (∀ k, (after 0 idle sweep).calls k = none) ∧
      ¬ (after 0 idle sweep.tail).TellsFirst 0 (.go 1) ∧
      ∀ later, Legal 0 idle (later ++ sweep) →
        (after 0 idle (later ++ sweep)).IsLost 0 (echo 1 0)) := by
  have hcalls : ∀ k, (after 0 idle overlap).calls k = none
    | 0 | 1 | 2 => rfl
    | _ + 3 => rfl
  have hcalls' : ∀ k, (after 0 idle sweep).calls k = none
    | 0 | 1 => rfl
    | _ + 2 => rfl
  have hlost : (after 0 idle overlap).IsLost 0 (echo 2 1) := by
    refine ⟨by decide +kernel, nofun, nofun, fun k name left h => ?_⟩
    rw [hcalls k] at h
    cases h
  have hlost' : (after 0 idle sweep).IsLost 0 (echo 1 0) := by
    refine ⟨by decide +kernel, nofun, nofun, fun k name left h => ?_⟩
    rw [hcalls' k] at h
    cases h
  refine ⟨⟨legal_of_canRun (by decide) rfl (by decide +kernel), hcalls, fun h => ?_,
    fun later h => lost_for_good h hlost⟩,
    legal_of_canRun (by decide) rfl (by decide +kernel), hcalls', fun h => ?_,
    fun later h => lost_for_good h hlost'⟩
  · exact hlost.not_told (h "echo" (echo 2 1) rfl nofun)
  · exact hlost'.not_told (h "echo" (echo 1 0) rfl nofun)

end Interleaving
end PluginHost
