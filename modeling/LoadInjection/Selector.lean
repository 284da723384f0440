import Mathlib.Algebra.Order.Field.Rat
import Mathlib.Tactic.NormNum
import LoadInjection.Value

/-!
# Candidate dataset selection

`scan_unique_rse_pair_datasets` and `validate_unique_rse_pair_dataset` are
queries over the `dataset_locks` table. A table is the list of its rows and a
query is the filter its `WHERE` clause computes.

Two readings of the SQL are fixed here. A comparison with a `NULL` column is
not true, so the row fails the filter. Each `exists()` subquery selects from
`dataset_locks` alone, and SQLAlchemy auto-correlates a subquery only when it
has more than one `FROM` entry: the subquery ranges over rows of its own. In
the scan, `DatasetLock.scope == DatasetLock.scope` therefore compares a
subquery row with itself, and the `NOT EXISTS` fails as soon as `dest` holds
any lock (`mem_scanUniqueRsePairDatasets`). The validation binds scope and
name as parameters and checks what its docstring says, in any lock state
(`validateUniqueRsePairDataset_eq_true`).
-/

namespace LoadInjection

structure DatasetLock where
  scope : String
  name : String
  ruleId : String
  rseId : String
  state : String
  bytes : Option Int
  length : Option Int
  deriving DecidableEq, Repr

structure UniqueDataset where
  scope : String
  name : String
  bytes : Option Int
  length : Option Int
  srcRseId : String
  destRseId : String
  deriving DecidableEq, Repr

-- ---------------------------------------------------------------------------
-- SQL comparisons
-- ---------------------------------------------------------------------------

def sqlGt : Option Int → Int → Bool
  | some x, c => decide (c < x)
  | none, _ => false

def sqlBetween : Option Int → Int → Int → Bool
  | some x, lo, hi => decide (lo ≤ x ∧ x ≤ hi)
  | none, _, _ => false

/-- `a / b > c`. SQLAlchemy 2.0 renders `/` on integer columns as true
division. -/
def sqlDivGt : Option Int → Option Int → Int → Bool
  | some a, some b, c => decide ((c : ℚ) < a / b)
  | _, _, _ => false

theorem sqlGt_eq_true : sqlGt x c = true ↔ ∃ v, x = some v ∧ c < v := by
  cases x <;> simp [sqlGt]

theorem sqlBetween_eq_true : sqlBetween x lo hi = true ↔ ∃ v, x = some v ∧ lo ≤ v ∧ v ≤ hi := by
  cases x <;> simp [sqlBetween]

theorem sqlDivGt_some (a b c : Int) (hb : 0 < b) :
    sqlDivGt (some a) (some b) c = decide (c * b < a) := by
  simp only [sqlDivGt, decide_eq_decide]
  rw [lt_div_iff₀ (by exact_mod_cast hb)]
  exact_mod_cast Iff.rfl

theorem ite_isEmpty_eq_true {α : Type} (l : List α) :
    (if l.isEmpty then false else true) = true ↔ ∃ x, x ∈ l := by
  rw [← List.isEmpty_eq_false_iff_exists_mem]
  cases l.isEmpty <;> simp

-- ---------------------------------------------------------------------------
-- The two queries
-- ---------------------------------------------------------------------------

def DatasetLock.toUniqueDataset (lock : DatasetLock) (srcRseId destRseId : String) :
    UniqueDataset :=
  ⟨lock.scope, lock.name, lock.bytes, lock.length, srcRseId, destRseId⟩

def scanUniqueRsePairDatasets (datasetLocks : List DatasetLock) (srcRseId destRseId : String) :
    List UniqueDataset :=
  let queryResult := datasetLocks.filter fun lock =>
    lock.state == "O" && sqlGt lock.bytes 0 && sqlBetween lock.length 1 1000 &&
      sqlDivGt lock.bytes lock.length 100000000 && lock.rseId == srcRseId &&
      !datasetLocks.any fun other =>
        other.scope == other.scope && other.name == other.name && other.rseId == destRseId
  queryResult.map (·.toUniqueDataset srcRseId destRseId)

def validateUniqueRsePairDataset (datasetLocks : List DatasetLock)
    (scope name srcRseId destRseId : String) : Bool :=
  let queryResult := datasetLocks.filter fun lock =>
    lock.scope == scope && lock.name == name && lock.rseId == srcRseId &&
      !datasetLocks.any fun other =>
        other.scope == scope && other.name == name && other.rseId == destRseId
  if queryResult.isEmpty then false else true

-- ---------------------------------------------------------------------------
-- What the queries select
-- ---------------------------------------------------------------------------

/-- A lock a candidate may come from: complete at `src`, of one to a thousand
files, of positive size and of an average file size above 100 MB, in exact
integer arithmetic. -/
def Qualifies (srcRseId : String) (lock : DatasetLock) : Prop :=
  lock.state = "O" ∧ lock.rseId = srcRseId ∧ ∃ b n, lock.bytes = some b ∧ lock.length = some n ∧
    0 < b ∧ 1 ≤ n ∧ n ≤ 1000 ∧ 100000000 * n < b

theorem scanFilter_eq_true (lock : DatasetLock) (srcRseId : String) :
    (lock.state == "O" && sqlGt lock.bytes 0 && sqlBetween lock.length 1 1000 &&
      sqlDivGt lock.bytes lock.length 100000000 && lock.rseId == srcRseId) = true ↔
      Qualifies srcRseId lock := by
  obtain ⟨scope, name, ruleId, rseId, state, bytes, length⟩ := lock
  unfold Qualifies
  cases bytes with
  | none => simp [sqlGt]
  | some b =>
    cases length with
    | none => simp [sqlBetween]
    | some n =>
      simp only [Bool.and_eq_true, beq_iff_eq, sqlGt_eq_true, sqlBetween_eq_true,
        Option.some.injEq]
      constructor
      · rintro ⟨⟨⟨⟨hs, _, rfl, hb⟩, _, rfl, hn⟩, hd⟩, hr⟩
        rw [sqlDivGt_some _ _ _ (by omega), decide_eq_true_eq] at hd
        exact ⟨hs, hr, _, _, rfl, rfl, hb, hn.1, hn.2, hd⟩
      · rintro ⟨hs, hr, _, _, rfl, rfl, hb, hn₁, hn₂, hd⟩
        rw [sqlDivGt_some _ _ _ (by omega), decide_eq_true_eq]
        exact ⟨⟨⟨⟨hs, _, rfl, hb⟩, _, rfl, hn₁, hn₂⟩, hd⟩, hr⟩

theorem mem_scanUniqueRsePairDatasets {datasetLocks : List DatasetLock}
    {srcRseId destRseId : String} {c : UniqueDataset} :
    c ∈ scanUniqueRsePairDatasets datasetLocks srcRseId destRseId ↔
      (∃ lock ∈ datasetLocks, Qualifies srcRseId lock ∧ c = lock.toUniqueDataset srcRseId destRseId) ∧
        ∀ other ∈ datasetLocks, other.rseId ≠ destRseId := by
  simp only [scanUniqueRsePairDatasets, List.mem_map, List.mem_filter, Bool.and_eq_true,
    Bool.not_eq_true', List.any_eq_false, beq_self_eq_true, true_and, beq_iff_eq]
  constructor
  · rintro ⟨lock, ⟨hl, hf, hd⟩, rfl⟩
    exact ⟨⟨lock, hl, (scanFilter_eq_true lock srcRseId).mp (by simpa using hf), rfl⟩, hd⟩
  · rintro ⟨⟨lock, hl, hq, rfl⟩, hd⟩
    exact ⟨lock, ⟨hl, by simpa using (scanFilter_eq_true lock srcRseId).mpr hq, hd⟩, rfl⟩

theorem validateUniqueRsePairDataset_eq_true {datasetLocks : List DatasetLock}
    {scope name srcRseId destRseId : String} :
    validateUniqueRsePairDataset datasetLocks scope name srcRseId destRseId = true ↔
      (∃ lock ∈ datasetLocks, lock.scope = scope ∧ lock.name = name ∧ lock.rseId = srcRseId) ∧
        ∀ other ∈ datasetLocks, ¬(other.scope = scope ∧ other.name = name ∧ other.rseId = destRseId) := by
  simp only [validateUniqueRsePairDataset, ite_isEmpty_eq_true, List.mem_filter, Bool.and_eq_true,
    beq_iff_eq, Bool.not_eq_true', List.any_eq_false, not_and]
  constructor
  · rintro ⟨lock, hl, ⟨⟨hs, hn⟩, hr⟩, hd⟩
    exact ⟨⟨lock, hl, hs, hn, hr⟩, fun other ho h₁ h₂ h₃ => by simpa [h₁, h₂, h₃] using hd other ho⟩
  · rintro ⟨⟨lock, hl, hs, hn, hr⟩, hd⟩
    exact ⟨lock, hl, ⟨⟨hs, hn⟩, hr⟩, fun other ho => by simpa using hd other ho⟩

-- ---------------------------------------------------------------------------
-- The scan and the re-check gate
-- ---------------------------------------------------------------------------

/-- Every candidate the scan returns passes the re-check on the same table. -/
theorem scanned_candidate_passes_validation (datasetLocks : List DatasetLock)
    (srcRseId destRseId : String) (c : UniqueDataset)
    (hc : c ∈ scanUniqueRsePairDatasets datasetLocks srcRseId destRseId) :
    validateUniqueRsePairDataset datasetLocks c.scope c.name srcRseId destRseId = true := by
  obtain ⟨⟨lock, hl, hq, rfl⟩, hd⟩ := mem_scanUniqueRsePairDatasets.mp hc
  exact validateUniqueRsePairDataset_eq_true.mpr
    ⟨⟨lock, hl, rfl, rfl, hq.2.1⟩, fun other ho h => hd other ho h.2.2⟩

theorem scanned_candidate_passes_validation_example :
    let locks : List DatasetLock := [⟨"user.jdoe", "dataset.a", "rule.1", "SRC", "O", some 300000000, some 2⟩]
    let c : UniqueDataset := ⟨"user.jdoe", "dataset.a", some 300000000, some 2, "SRC", "DST"⟩
    c ∈ scanUniqueRsePairDatasets locks "SRC" "DST" ∧
      validateUniqueRsePairDataset locks c.scope c.name "SRC" "DST" = true := by
  intro locks c
  have hc : c ∈ scanUniqueRsePairDatasets locks "SRC" "DST" := mem_scanUniqueRsePairDatasets.mpr
    ⟨⟨_, List.mem_singleton_self _, ⟨rfl, rfl, 300000000, 2, rfl, rfl, by norm_num⟩, rfl⟩, by decide⟩
  exact ⟨hc, scanned_candidate_passes_validation locks "SRC" "DST" c hc⟩

/-- A lock of another dataset at `dest` hides a candidate the scan should
return. -/
theorem scan_drops_candidate_of_other_dest_lock :
    let locks : List DatasetLock :=
      [⟨"user.jdoe", "dataset.a", "rule.1", "SRC", "O", some 300000000, some 2⟩,
       ⟨"user.jdoe", "dataset.b", "rule.2", "DST", "O", some 1, some 1⟩]
    (∃ lock ∈ locks, Qualifies "SRC" lock ∧
        (⟨"user.jdoe", "dataset.a", some 300000000, some 2, "SRC", "DST"⟩ : UniqueDataset) =
          lock.toUniqueDataset "SRC" "DST") ∧
      (∀ other ∈ locks, ¬(other.scope = "user.jdoe" ∧ other.name = "dataset.a" ∧ other.rseId = "DST")) ∧
      ⟨"user.jdoe", "dataset.a", some 300000000, some 2, "SRC", "DST"⟩ ∉
        scanUniqueRsePairDatasets locks "SRC" "DST" := by
  refine ⟨⟨_, List.mem_cons_self _ _, ⟨rfl, rfl, 300000000, 2, rfl, rfl, by norm_num⟩, rfl⟩,
    by decide, fun h => ?_⟩
  exact (mem_scanUniqueRsePairDatasets.mp h).2 _ (List.mem_cons_of_mem _ (List.mem_singleton_self _)) rfl

/-- The re-check, as the code has it: present at `src` in any state, absent
from `dest`. -/
theorem validate_checks_presence_not_state (datasetLocks : List DatasetLock)
    (scope name srcRseId destRseId : String) :
    (validateUniqueRsePairDataset datasetLocks scope name srcRseId destRseId = true ↔
      (∃ lock ∈ datasetLocks, lock.scope = scope ∧ lock.name = name ∧ lock.rseId = srcRseId) ∧
        ∀ other ∈ datasetLocks, ¬(other.scope = scope ∧ other.name = name ∧ other.rseId = destRseId)) ∧
    ((∃ other ∈ datasetLocks, other.scope = scope ∧ other.name = name ∧ other.rseId = destRseId) →
      validateUniqueRsePairDataset datasetLocks scope name srcRseId destRseId = false) ∧
    ((∀ lock ∈ datasetLocks, ¬(lock.scope = scope ∧ lock.name = name ∧ lock.rseId = srcRseId)) →
      validateUniqueRsePairDataset datasetLocks scope name srcRseId destRseId = false) := by
  refine ⟨validateUniqueRsePairDataset_eq_true, fun ⟨other, ho, h⟩ => ?_, fun hs => ?_⟩ <;>
    rw [← Bool.not_eq_true, validateUniqueRsePairDataset_eq_true]
  · exact fun hv => hv.2 other ho h
  · exact fun ⟨⟨lock, hl, h⟩, _⟩ => hs lock hl h

theorem validate_accepts_replicating_lock :
    validateUniqueRsePairDataset [⟨"user.jdoe", "dataset.a", "rule.1", "SRC", "R", none, none⟩]
        "user.jdoe" "dataset.a" "SRC" "DST" = true ∧
      ¬∃ lock ∈ ([⟨"user.jdoe", "dataset.a", "rule.1", "SRC", "R", none, none⟩] : List DatasetLock),
        lock.scope = "user.jdoe" ∧ lock.name = "dataset.a" ∧ lock.rseId = "SRC" ∧ lock.state = "O" := by
  decide

end LoadInjection
