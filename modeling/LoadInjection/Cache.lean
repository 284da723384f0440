import LoadInjection.Selector
import LoadInjection.Table

/-!
# The dataset cache

The cache table holds the candidates of earlier scans, one row per
`(src_rse_id, dest_rse_id, scope, name)`. Its model is not among the
sources; the key is the one the spec gives the cache, under which a repeated
tuple is rejected.

`add_unique_rse_pair_datasets` saves every row with `flush=False` and
flushes once. An `IntegrityError` of the flush becomes a `RucioException`
and the session rolls back, so a batch is stored whole or not at all. The
three operations refine a finite set of entries (`cache_refines_set_of_entries`).
The scan is no safe source for a batch: it emits one dict per lock, and a
dataset locked at `src` by two rules comes out twice.
-/

namespace LoadInjection

structure DatasetKey where
  srcRseId : String
  destRseId : String
  scope : String
  name : String
  deriving DecidableEq, Repr

def UniqueDataset.key (d : UniqueDataset) : DatasetKey := ⟨d.srcRseId, d.destRseId, d.scope, d.name⟩

/-- Modelled from the spec: the cache table and its key, from the unique-pair
dataset cache's `put`; the table's model is not in `src/`. -/
abbrev DatasetCache := Table UniqueDataset UniqueDataset.key

def getUniqueRsePairDatasets (cache : DatasetCache) (srcRseId destRseId : String) :
    List UniqueDataset :=
  cache.rows.filter fun dataset => dataset.srcRseId == srcRseId && dataset.destRseId == destRseId

def addUniqueRsePairDatasets (datasets : List UniqueDataset) (cache : DatasetCache) :
    Except Error DatasetCache :=
  match cache.flush datasets with
  | some cache' => .ok cache'
  | none => .error .rucioException

def addUniqueRsePairDataset (srcRseId destRseId scope name : String) (bytes length : Option Int) :
    DatasetCache → Except Error DatasetCache :=
  addUniqueRsePairDatasets [⟨scope, name, bytes, length, srcRseId, destRseId⟩]

def deleteUniqueRsePairDatasets (datasets : List DatasetKey) (cache : DatasetCache) : DatasetCache :=
  datasets.foldl (fun cache dataset => cache.delete fun row =>
    row.srcRseId == dataset.srcRseId && row.destRseId == dataset.destRseId &&
      row.scope == dataset.scope && row.name == dataset.name) cache

def deleteUniqueRsePairDataset (srcRseId destRseId scope name : String) :
    DatasetCache → DatasetCache :=
  deleteUniqueRsePairDatasets [⟨srcRseId, destRseId, scope, name⟩]

-- ---------------------------------------------------------------------------
-- One lemma per operation
-- ---------------------------------------------------------------------------

theorem addUniqueRsePairDatasets_eq_ok {cache cache' : DatasetCache} {datasets : List UniqueDataset} :
    addUniqueRsePairDatasets datasets cache = .ok cache' ↔
      ((cache.rows ++ datasets).map UniqueDataset.key).Nodup ∧ cache'.rows = cache.rows ++ datasets := by
  unfold addUniqueRsePairDatasets
  rw [← Table.flush_eq_some]
  cases cache.flush datasets <;> simp

theorem addUniqueRsePairDatasets_eq_error {cache : DatasetCache} {datasets : List UniqueDataset} :
    addUniqueRsePairDatasets datasets cache = .error e ↔
      ¬((cache.rows ++ datasets).map UniqueDataset.key).Nodup ∧ e = .rucioException := by
  unfold addUniqueRsePairDatasets
  rw [← Table.flush_eq_none]
  cases cache.flush datasets <;> simp [eq_comm]

theorem nodup_keys_append {cache : DatasetCache} {datasets : List UniqueDataset} :
    ((cache.rows ++ datasets).map UniqueDataset.key).Nodup ↔
      (datasets.map UniqueDataset.key).Nodup ∧
        ∀ d ∈ datasets, d.key ∉ cache.rows.map UniqueDataset.key := by
  rw [List.map_append, List.nodup_append]
  simp only [cache.nodup, true_and, List.Disjoint, List.mem_map]
  exact and_congr_right fun _ =>
    ⟨fun h d hd ⟨r, hr, he⟩ => h ⟨r, hr, he⟩ ⟨d, hd, rfl⟩,
     fun h _ ⟨r, hr, he⟩ ⟨d, hd, he'⟩ => h d hd ⟨r, hr, he.trans he'.symm⟩⟩

theorem deleteMatch_eq_key_beq (row : UniqueDataset) (dataset : DatasetKey) :
    (row.srcRseId == dataset.srcRseId && row.destRseId == dataset.destRseId &&
      row.scope == dataset.scope && row.name == dataset.name) = (row.key == dataset) := by
  obtain ⟨src, dest, scope, name⟩ := dataset
  rw [Bool.eq_iff_iff]
  simp [UniqueDataset.key, and_assoc]

theorem deleteUniqueRsePairDatasets_rows (datasets : List DatasetKey) (cache : DatasetCache) :
    (deleteUniqueRsePairDatasets datasets cache).rows =
      cache.rows.filter fun row => decide (row.key ∉ datasets) := by
  induction datasets generalizing cache with
  | nil => simp [deleteUniqueRsePairDatasets]
  | cons k ks ih =>
    simp only [deleteUniqueRsePairDatasets, List.foldl_cons] at ih ⊢
    rw [ih, Table.delete_rows, List.filter_filter]
    congr 1
    funext row
    rw [deleteMatch_eq_key_beq]
    by_cases h : row.key = k <;> simp [h]

theorem mem_getUniqueRsePairDatasets {cache : DatasetCache} {srcRseId destRseId : String}
    {d : UniqueDataset} :
    d ∈ getUniqueRsePairDatasets cache srcRseId destRseId ↔
      d ∈ cache.rows ∧ d.srcRseId = srcRseId ∧ d.destRseId = destRseId := by
  simp [getUniqueRsePairDatasets]

-- ---------------------------------------------------------------------------
-- The cache as a set of entries
-- ---------------------------------------------------------------------------

/-- Adding a batch yields the union when its keys are distinct and new, and
otherwise raises with the cache rolled back; deleting removes exactly the
named keys; a read returns exactly the entries of the pair. -/
theorem cache_refines_set_of_entries (cache : DatasetCache) (batch : List UniqueDataset)
    (keys : List DatasetKey) (srcRseId destRseId : String) :
    (((batch.map UniqueDataset.key).Nodup ∧ ∀ d ∈ batch, d.key ∉ cache.rows.map UniqueDataset.key) →
      ∃ cache', transactional (addUniqueRsePairDatasets batch) cache = (.ok (), cache') ∧
        ∀ d, d ∈ cache'.rows ↔ d ∈ cache.rows ∨ d ∈ batch) ∧
    (¬((batch.map UniqueDataset.key).Nodup ∧ ∀ d ∈ batch, d.key ∉ cache.rows.map UniqueDataset.key) →
      transactional (addUniqueRsePairDatasets batch) cache = (.error .rucioException, cache)) ∧
    (∀ d, d ∈ (deleteUniqueRsePairDatasets keys cache).rows ↔ d ∈ cache.rows ∧ d.key ∉ keys) ∧
    (∀ d, d ∈ getUniqueRsePairDatasets cache srcRseId destRseId ↔
      d ∈ cache.rows ∧ d.srcRseId = srcRseId ∧ d.destRseId = destRseId) := by
  refine ⟨fun h => ?_, fun h => ?_, fun d => ?_, fun d => mem_getUniqueRsePairDatasets⟩
  · have hn := nodup_keys_append.mpr h
    exact ⟨⟨_, hn⟩, transactional_of_ok (addUniqueRsePairDatasets_eq_ok.mpr ⟨hn, rfl⟩),
      fun d => List.mem_append⟩
  · exact transactional_of_error
      (addUniqueRsePairDatasets_eq_error.mpr ⟨fun hn => h (nodup_keys_append.mp hn), rfl⟩)
  · simp [deleteUniqueRsePairDatasets_rows]

/-- A dataset locked at `src` by two rules comes out of the scan twice, and
the batch cannot be cached. -/
theorem scan_repeats_dataset_of_two_rules :
    let locks : List DatasetLock :=
      [⟨"user.jdoe", "dataset.a", "rule.1", "SRC", "O", some 300000000, some 2⟩,
       ⟨"user.jdoe", "dataset.a", "rule.2", "SRC", "O", some 300000000, some 2⟩]
    let c : UniqueDataset := ⟨"user.jdoe", "dataset.a", some 300000000, some 2, "SRC", "DST"⟩
    scanUniqueRsePairDatasets locks "SRC" "DST" = [c, c] ∧
      transactional (addUniqueRsePairDatasets (scanUniqueRsePairDatasets locks "SRC" "DST"))
        Table.empty = (.error .rucioException, Table.empty) := by
  intro locks c
  have hs : scanUniqueRsePairDatasets locks "SRC" "DST" = [c, c] := by
    simp [locks, c, scanUniqueRsePairDatasets, sqlGt, sqlBetween, sqlDivGt_some,
      DatasetLock.toUniqueDataset]
  exact ⟨hs, by rw [hs]; rfl⟩

end LoadInjection
