/-
Checkpoints and the migration of their variables.

The services register migrators on the class, keyed by the schema version they start
from.  `migrateToCurrent` brings one checkpoint to the end of the registry.
-/
import Sutram.Core.Json
import Sutram.Core.Uuid
import Sutram.Library.Dict
import Sutram.Library.SortedKeys

namespace Sutram.Core

open SortedKeys

abbrev Variables := List (String × Json)

/-- What a migrator, or the lookup of one, raises. -/
inductive MigrationError where
  | keyError (key : Json)
  | other (message : String)
deriving DecidableEq

abbrev MigratorFn := Variables → Except MigrationError Variables

abbrev MigratorMap := Dict Int MigratorFn

structure Checkpoint (D : Type) where
  id : Uuid
  createdAt : D
  executionId : Uuid
  tenantId : Uuid
  stepName : String
  stepIndex : Int
  contextVariables : Variables
  state : List (String × Json)
  schemaVersion : Int := 1
deriving DecidableEq

namespace MigratorMap

def versions (migrators : MigratorMap) : List Int := migrators.entries.map Prod.fst

/-- `self.migrators[v](variables)` -/
def apply (migrators : MigratorMap) (v : Int) (contextVariables : Variables) :
    Except MigrationError Variables :=
  match migrators.get? v with
  | some migrator => migrator contextVariables
  | none => .error (.keyError (.int v))

theorem mem_versions {migrators : MigratorMap} {v : Int} :
    v ∈ migrators.versions ↔ ∃ f, migrators.get? v = some f := by
  simp only [versions, List.mem_map, Prod.exists, Dict.mem_iff_get?]
  constructor
  · rintro ⟨u, f, h, rfl⟩
    exact ⟨f, h⟩
  · rintro ⟨f, h⟩
    exact ⟨v, f, h, rfl⟩

theorem apply_of_get? {migrators : MigratorMap} {v : Int} {f : MigratorFn}
    (h : migrators.get? v = some f) (contextVariables : Variables) :
    migrators.apply v contextVariables = f contextVariables := by
  simp [apply, h]

/-- Later migrators start from versions above all the earlier ones. -/
structure Extends (m m' : MigratorMap) : Prop where
  kept : ∀ v f, m.get? v = some f → m'.get? v = some f
  above : ∀ v ∈ m'.versions, v ∉ m.versions → ∀ u ∈ m.versions, u < v

theorem Extends.refl (m : MigratorMap) : Extends m m :=
  ⟨fun _ _ h => h, fun _ h hnot => absurd h hnot⟩

theorem Extends.mem {m m' : MigratorMap} (h : Extends m m') {v : Int} (hv : v ∈ m.versions) :
    v ∈ m'.versions := by
  obtain ⟨f, hf⟩ := mem_versions.mp hv
  exact mem_versions.mpr ⟨f, h.kept v f hf⟩

theorem Extends.apply_eq {m m' : MigratorMap} (h : Extends m m') {v : Int}
    (hv : v ∈ m.versions) (contextVariables : Variables) :
    m'.apply v contextVariables = m.apply v contextVariables := by
  obtain ⟨f, hf⟩ := mem_versions.mp hv
  rw [apply_of_get? hf, apply_of_get? (h.kept v f hf)]

/-- Registering a migrator above all there are. -/
theorem extends_set {m : MigratorMap} {v : Int} (hv : ∀ u ∈ m.versions, u < v) (f : MigratorFn) :
    Extends m (m.set v f) := by
  have hne : ∀ u ∈ m.versions, u ≠ v := fun u hu => (hv u hu).ne
  constructor
  · intro u g hg
    rwa [Dict.get?_set_of_ne m f (hne u (mem_versions.mpr ⟨g, hg⟩))]
  · intro u hu hnot
    obtain ⟨g, hg⟩ := mem_versions.mp hu
    by_cases h : u = v
    · exact h ▸ hv
    · rw [Dict.get?_set_of_ne m f h] at hg
      exact absurd (mem_versions.mpr ⟨g, hg⟩) hnot

end MigratorMap

/-! ## The loop -/

/-- The loop over the sorted versions, with the variables and the version reached. -/
def migrateLoop (migrators : MigratorMap) :
    List Int → Variables → Int → Except MigrationError (Variables × Int)
  | [], contextVariables, version => .ok (contextVariables, version)
  | v :: vs, contextVariables, _ =>
    match migrators.apply v contextVariables with
    | .error e => .error e
    | .ok contextVariables => migrateLoop migrators vs contextVariables (v + 1)

namespace Checkpoint

variable {D : Type}

def migrateToCurrent (migrators : MigratorMap) (c : Checkpoint D) :
    Except MigrationError (Checkpoint D) :=
  let sortedVersions := keysFrom c.schemaVersion migrators.versions
  match migrateLoop migrators sortedVersions c.contextVariables c.schemaVersion with
  | .error e => .error e
  | .ok (contextVariables, version) => .ok { c with contextVariables, schemaVersion := version }

end Checkpoint

/-- The version the loop ends with. -/
def nextVersion (version : Int) : List Int → Int
  | [] => version
  | v :: vs => nextVersion (v + 1) vs

theorem migrateLoop_version {m : MigratorMap} {vs : List Int} {x x' : Variables} {n n' : Int}
    (h : migrateLoop m vs x n = .ok (x', n')) : n' = nextVersion n vs := by
  induction vs generalizing x n with
  | nil =>
    cases h
    rfl
  | cons v vs ih =>
    cases ha : m.apply v x with
    | error e => simp [migrateLoop, ha] at h
    | ok y =>
      rw [migrateLoop, ha] at h
      exact ih h

theorem migrateLoop_append (m : MigratorMap) (vs ws : List Int) (x : Variables) (n : Int) :
    migrateLoop m (vs ++ ws) x n =
      (migrateLoop m vs x n).bind fun p => migrateLoop m ws p.1 p.2 := by
  induction vs generalizing x n with
  | nil => rfl
  | cons v vs ih =>
    cases ha : m.apply v x with
    | error e => simp [migrateLoop, ha, Except.bind]
    | ok y => simpa [migrateLoop, ha] using ih y (v + 1)

theorem migrateLoop_extends {m m' : MigratorMap} (h : m.Extends m') {vs : List Int}
    (hvs : ∀ v ∈ vs, v ∈ m.versions) (x : Variables) (n : Int) :
    migrateLoop m' vs x n = migrateLoop m vs x n := by
  induction vs generalizing x n with
  | nil => rfl
  | cons v vs ih =>
    rw [List.forall_mem_cons] at hvs
    simp only [migrateLoop, h.apply_eq hvs.1, ih hvs.2]

/-- In ascending versions from `n` on the loop ends above all it has passed. -/
theorem lt_nextVersion {n : Int} {vs : List Int} (h : vs.Pairwise (· < ·)) :
    ∀ v ∈ vs, v < nextVersion n vs := by
  induction vs generalizing n with
  | nil => simp
  | cons u us ih =>
    rw [List.pairwise_cons] at h
    have hus : ∀ v ∈ us, v < nextVersion (u + 1) us := ih h.2
    intro v hv
    rcases List.mem_cons.mp hv with rfl | hv
    · cases us with
      | nil => exact Int.lt_succ v
      | cons w ws => exact lt_trans (h.1 w List.mem_cons_self) (hus w List.mem_cons_self)
    · exact hus v hv

/-- The version the loop ends with is the one it starts from or one above a version
it has passed. -/
theorem nextVersion_cases (n : Int) (vs : List Int) :
    vs = [] ∧ nextVersion n vs = n ∨ ∃ v ∈ vs, nextVersion n vs = v + 1 := by
  induction vs generalizing n with
  | nil => exact .inl ⟨rfl, rfl⟩
  | cons u us ih =>
    right
    rcases ih (u + 1) with ⟨-, h⟩ | ⟨v, hv, h⟩
    · exact ⟨u, List.mem_cons_self, h⟩
    · exact ⟨v, List.mem_cons_of_mem u hv, h⟩

/-- The loop ends where it starts when nothing is registered from there on. -/
theorem nextVersion_keysFrom_eq_iff {m : MigratorMap} {n : Int} :
    nextVersion n (keysFrom n m.versions) = n ↔ ∀ v ∈ m.versions, v < n := by
  rw [← keysFrom_eq_nil]
  constructor
  · intro h
    rcases nextVersion_cases n (keysFrom n m.versions) with ⟨hnil, -⟩ | ⟨v, hv, hlast⟩
    · exact hnil
    · have := (mem_keysFrom.mp hv).2
      omega
  · intro h
    rw [h]
    rfl

/-- The version that the registry leads to from the default one. -/
def MigratorMap.currentVersion (m : MigratorMap) : Int := nextVersion 1 (keysFrom 1 m.versions)

/-- What a later registry adds is applied from where the earlier one has left off. -/
theorem keysFrom_extends {m m' : MigratorMap} (h : m.Extends m') (n : Int) :
    keysFrom n m'.versions =
      keysFrom n m.versions ++ keysFrom (nextVersion n (keysFrom n m.versions)) m'.versions := by
  refine keysFrom_append m.nodup m'.nodup (fun v hv => h.mem hv)
    (lt_nextVersion (keysFrom_pairwise n m.nodup)) ?_
  intro v hv hnot
  rcases nextVersion_cases n (keysFrom n m.versions) with ⟨-, hnext⟩ | ⟨u, hu, hnext⟩
  · rw [hnext]
  · -- The last version passed is `u`; whatever was not passed is below `n` or new.
    have hmem := mem_keysFrom.mp hu
    rw [hnext]
    constructor
    · intro hle
      have hnew : v ∉ m.versions := fun hin => hnot (mem_keysFrom.mpr ⟨hin, hle⟩)
      have := h.above v hv hnew u hmem.1
      omega
    · intro hle
      omega

/-! ## The registry as the list of its steps -/

namespace Checkpoint

variable {D : Type}

/-- One migrator applied to a checkpoint, and the version it leads to. -/
def upgrade (c : Checkpoint D) (step : Int × MigratorFn) :
    Except MigrationError (Checkpoint D) :=
  (step.2 c.contextVariables).map fun contextVariables =>
    { c with contextVariables, schemaVersion := step.1 + 1 }

theorem migrateToCurrent_eq_map (m : MigratorMap) (c : Checkpoint D) :
    c.migrateToCurrent m =
      (migrateLoop m (keysFrom c.schemaVersion m.versions) c.contextVariables c.schemaVersion).map
        fun p => { c with contextVariables := p.1, schemaVersion := p.2 } := by
  cases h : migrateLoop m (keysFrom c.schemaVersion m.versions) c.contextVariables
    c.schemaVersion with
  | error e => simp [migrateToCurrent, h, Except.map]
  | ok p => simp [migrateToCurrent, h, Except.map]

/-- The loop on versions of the registry is the list of their migrators, each applied
once. -/
theorem exists_steps {m : MigratorMap} {vs : List Int} (hvs : ∀ v ∈ vs, v ∈ m.versions) :
    ∃ steps : List (Int × MigratorFn), steps.map Prod.fst = vs ∧
      (∀ s ∈ steps, m.get? s.1 = some s.2) ∧
      ∀ c : Checkpoint D, steps.foldlM upgrade c =
        (migrateLoop m vs c.contextVariables c.schemaVersion).map
          fun p => { c with contextVariables := p.1, schemaVersion := p.2 } := by
  induction vs with
  | nil => exact ⟨[], rfl, by simp, fun c => rfl⟩
  | cons v vs ih =>
    rw [List.forall_mem_cons] at hvs
    obtain ⟨f, hf⟩ := MigratorMap.mem_versions.mp hvs.1
    obtain ⟨steps, hfst, hget, hfold⟩ := ih hvs.2
    refine ⟨(v, f) :: steps, by rw [List.map_cons, hfst], ?_, fun c => ?_⟩
    · rw [List.forall_mem_cons]
      exact ⟨hf, hget⟩
    · rw [List.foldlM_cons, migrateLoop, MigratorMap.apply_of_get? hf]
      cases hrun : f c.contextVariables with
      | error e => simp [upgrade, hrun, Except.map, bind, Except.bind]
      | ok contextVariables => simp [upgrade, hrun, Except.map, bind, Except.bind, hfold]

/-- The registry's migrators from the checkpoint's version on, in ascending order. -/
theorem exists_ascending_steps (m : MigratorMap) (c : Checkpoint D) :
    ∃ steps : List (Int × MigratorFn), (steps.map Prod.fst).Pairwise (· < ·) ∧
      (∀ v f, (v, f) ∈ steps ↔ m.get? v = some f ∧ c.schemaVersion ≤ v) ∧
      c.migrateToCurrent m = steps.foldlM upgrade c := by
  obtain ⟨steps, hfst, hget, hfold⟩ := exists_steps (D := D)
    (fun v (hv : v ∈ keysFrom c.schemaVersion m.versions) => (mem_keysFrom.mp hv).1)
  refine ⟨steps, ?_, ?_, ?_⟩
  · rw [hfst]
    exact keysFrom_pairwise c.schemaVersion m.nodup
  · intro v f
    constructor
    · intro hmem
      have hv : v ∈ keysFrom c.schemaVersion m.versions := hfst ▸ List.mem_map_of_mem hmem
      exact ⟨hget _ hmem, (mem_keysFrom.mp hv).2⟩
    · rintro ⟨hf, hle⟩
      have hv : v ∈ steps.map Prod.fst := by
        rw [hfst]
        exact mem_keysFrom.mpr ⟨MigratorMap.mem_versions.mpr ⟨f, hf⟩, hle⟩
      obtain ⟨⟨u, g⟩, hmem, rfl⟩ := List.mem_map.mp hv
      have : g = f := Option.some.inj ((hget _ hmem).symm.trans hf)
      rwa [this] at hmem
  · rw [migrateToCurrent_eq_map, hfold]

theorem migrateToCurrent_eq_ok {m : MigratorMap} {c c' : Checkpoint D}
    (h : c.migrateToCurrent m = .ok c') :
    ∃ x n, migrateLoop m (keysFrom c.schemaVersion m.versions) c.contextVariables
        c.schemaVersion = .ok (x, n) ∧
      c' = { c with contextVariables := x, schemaVersion := n } := by
  rw [migrateToCurrent_eq_map] at h
  cases hloop : migrateLoop m (keysFrom c.schemaVersion m.versions) c.contextVariables
    c.schemaVersion with
  | error e => simp [hloop, Except.map] at h
  | ok p =>
    rw [hloop] at h
    cases h
    exact ⟨p.1, p.2, rfl, rfl⟩

/-- Migrating with a registry and later with one that extends it. -/
theorem migrateToCurrent_trans {m m' : MigratorMap} (h : m.Extends m') (c : Checkpoint D) :
    ((c.migrateToCurrent m).bind fun c' => c'.migrateToCurrent m') = c.migrateToCurrent m' := by
  have hearlier : ∀ v ∈ keysFrom c.schemaVersion m.versions, v ∈ m.versions :=
    fun v hv => (mem_keysFrom.mp hv).1
  rw [migrateToCurrent_eq_map m' c, keysFrom_extends h, migrateLoop_append,
    migrateLoop_extends h hearlier]
  cases hloop : migrateLoop m (keysFrom c.schemaVersion m.versions) c.contextVariables
    c.schemaVersion with
  | error e => simp [migrateToCurrent_eq_map, hloop, Except.map, Except.bind]
  | ok p =>
    obtain ⟨x, n⟩ := p
    obtain rfl := migrateLoop_version hloop
    simp only [migrateToCurrent_eq_map, hloop, Except.map, Except.bind]

/-- Nothing is registered for the checkpoint's version or a later one. -/
theorem migrateToCurrent_of_lt {m : MigratorMap} {c : Checkpoint D}
    (h : ∀ v ∈ m.versions, v < c.schemaVersion) : c.migrateToCurrent m = .ok c := by
  rw [migrateToCurrent_eq_map, keysFrom_eq_nil.mpr h]
  rfl

/-- A migrator that is applied raises the version. -/
theorem lt_of_migrateToCurrent {m : MigratorMap} {c c' : Checkpoint D}
    (h : c.migrateToCurrent m = .ok c') (hversion : c'.schemaVersion = c.schemaVersion) :
    ∀ v ∈ m.versions, v < c.schemaVersion := by
  obtain ⟨x, n, hloop, rfl⟩ := migrateToCurrent_eq_ok h
  exact nextVersion_keysFrom_eq_iff.mp ((migrateLoop_version hloop).symm.trans hversion)

/-- Every migrator from the checkpoint's version on is applied once, in ascending order,
and none below it.  A later registry may be applied at once or after the earlier one,
the same registry again changes nothing, and neither does migration change any field
besides the variables and the version. -/
theorem migrateToCurrent_correct {m m' : MigratorMap} (h : m.Extends m') (c : Checkpoint D) :
    (∃ steps : List (Int × MigratorFn), (steps.map Prod.fst).Pairwise (· < ·) ∧
      (∀ v f, (v, f) ∈ steps ↔ m.get? v = some f ∧ c.schemaVersion ≤ v) ∧
      c.migrateToCurrent m = steps.foldlM upgrade c) ∧
    ((c.migrateToCurrent m).bind fun c' => c'.migrateToCurrent m') = c.migrateToCurrent m' ∧
    ((c.migrateToCurrent m).bind fun c' => c'.migrateToCurrent m) = c.migrateToCurrent m ∧
    ∀ c', c.migrateToCurrent m = .ok c' →
      c' =
        { c with
          contextVariables := c'.contextVariables
          schemaVersion := c'.schemaVersion } := by
  refine ⟨exists_ascending_steps m c, migrateToCurrent_trans h c,
    migrateToCurrent_trans (.refl m) c, ?_⟩
  intro c' hc'
  obtain ⟨x, n, -, rfl⟩ := migrateToCurrent_eq_ok hc'
  rfl

end Checkpoint

/-- A migrator that keeps one value under another key. -/
def renameKey (oldKey newKey : String) : MigratorFn := fun contextVariables =>
  match contextVariables.find? fun e => e.1 = oldKey with
  | some e => .ok [(newKey, e.2)]
  | none => .error (.keyError (.str oldKey))

def sparseMigrators : MigratorMap :=
  (Dict.empty.set 2 (renameKey "a" "b")).set 5 (renameKey "b" "c")

def laterMigrators : MigratorMap := sparseMigrators.set 6 (renameKey "c" "d")

def oldCheckpoint : Checkpoint Nat where
  id := ⟨List.replicate 32 1, by simp⟩
  createdAt := 0
  executionId := ⟨List.replicate 32 2, by simp⟩
  tenantId := ⟨List.replicate 32 3, by simp⟩
  stepName := "step1"
  stepIndex := 0
  contextVariables := [("a", .str "hello")]
  state := []

theorem oldCheckpoint_migrated_in_two_parts :
    (oldCheckpoint.migrateToCurrent sparseMigrators).bind
        (Checkpoint.migrateToCurrent laterMigrators) =
      oldCheckpoint.migrateToCurrent laterMigrators ∧
    (oldCheckpoint.migrateToCurrent laterMigrators).map Checkpoint.contextVariables =
      .ok [("d", .str "hello")] ∧
    (oldCheckpoint.migrateToCurrent laterMigrators).map Checkpoint.schemaVersion = .ok 7 :=
  ⟨(Checkpoint.migrateToCurrent_correct
      (MigratorMap.extends_set (m := sparseMigrators) (v := 6) (by decide) (renameKey "c" "d"))
      oldCheckpoint).2.1, by decide, by decide⟩

end Sutram.Core
