import Mathlib.Data.List.Nodup
import LoadInjection.Value

/-!
# Keyed tables and sessions

A table of the durable store is a list of rows whose primary keys are
pairwise distinct; the field `nodup` makes a table that breaks its key
impossible to build. `insert` is one row of a flush and fails, as the
database's `IntegrityError` does, on a key already present; `flush` inserts
the rows saved with `flush=False` in the order they were saved. A `DELETE`
or an `UPDATE` that keeps the key cannot break it.

`transactional` is the `@transactional_session` decorator on the outermost
call: the new state is committed on success and rolled back on an exception.
-/

namespace LoadInjection

structure Table {κ : Type} (α : Type) (key : α → κ) where
  rows : List α
  nodup : (rows.map key).Nodup

namespace Table

variable {κ α : Type} {key : α → κ}

theorem ext_rows {t t' : Table α key} (h : t.rows = t'.rows) : t = t' := by
  cases t; cases t'; cases h; rfl

def empty : Table α key := ⟨[], List.nodup_nil⟩

def delete (t : Table α key) (p : α → Bool) : Table α key :=
  ⟨t.rows.filter (fun r => !p r), t.nodup.sublist ((List.filter_sublist _).map key)⟩

/-- `UPDATE ... WHERE p SET ...`, for an assignment `f` that leaves the key alone. -/
def update (t : Table α key) (p : α → Bool) (f : α → α) (hf : ∀ r, key (f r) = key r) :
    Table α key :=
  ⟨t.rows.map (fun r => if p r then f r else r), by
    have h : (t.rows.map fun r => if p r then f r else r).map key = t.rows.map key := by
      rw [List.map_map]
      exact List.map_congr_left fun r _ => by by_cases hr : p r <;> simp [hr, hf]
    exact h ▸ t.nodup⟩

@[simp] theorem empty_rows : (empty : Table α key).rows = [] := rfl

@[simp] theorem delete_rows (t : Table α key) (p : α → Bool) :
    (t.delete p).rows = t.rows.filter (fun r => !p r) := rfl

theorem delete_delete (t : Table α key) (p q : α → Bool) :
    (t.delete p).delete q = t.delete fun r => p r || q r := by
  refine ext_rows ?_
  simp only [delete_rows, List.filter_filter]
  exact List.filter_congr fun r _ => by cases p r <;> cases q r <;> rfl

@[simp] theorem delete_false (t : Table α key) : t.delete (fun _ => false) = t :=
  ext_rows (List.filter_eq_self.mpr fun _ _ => rfl)

@[simp] theorem update_rows (t : Table α key) (p : α → Bool) (f : α → α) (hf) :
    (t.update p f hf).rows = t.rows.map (fun r => if p r then f r else r) := rfl

section Flush

variable [DecidableEq κ]

def insert (t : Table α key) (row : α) : Option (Table α key) :=
  if h : key row ∈ t.rows.map key then none
  else some ⟨t.rows ++ [row], by
    rw [List.map_append, List.map_singleton]
    exact t.nodup.append (List.nodup_singleton _) (List.disjoint_singleton.mpr h)⟩

def flush : Table α key → List α → Option (Table α key)
  | t, [] => some t
  | t, row :: pending => (t.insert row).bind (flush · pending)

theorem insert_eq_some {t t' : Table α key} {row : α} :
    t.insert row = some t' ↔ key row ∉ t.rows.map key ∧ t'.rows = t.rows ++ [row] := by
  unfold insert
  split
  · simp_all
  · rename_i h
    simp only [Option.some.injEq, h, not_false_eq_true, true_and]
    exact ⟨fun e => e ▸ rfl, fun e => ext_rows e.symm⟩

/-- A flush succeeds exactly when the saved rows keep the key, and then it
appends them. -/
theorem flush_eq_some {t t' : Table α key} {pending : List α} :
    t.flush pending = some t' ↔
      ((t.rows ++ pending).map key).Nodup ∧ t'.rows = t.rows ++ pending := by
  induction pending generalizing t with
  | nil =>
    simp only [flush, Option.some.injEq, List.append_nil, t.nodup, true_and]
    exact ⟨fun e => e ▸ rfl, fun e => ext_rows e.symm⟩
  | cons row pending ih =>
    rw [flush, Option.bind_eq_some]
    constructor
    · rintro ⟨t₁, h₁, h₂⟩
      rw [insert_eq_some] at h₁
      rw [ih, h₁.2, List.append_assoc] at h₂
      simpa using h₂
    · rintro ⟨hn, hr⟩
      have hrow : key row ∉ t.rows.map key := by
        simp only [List.map_append, List.map_cons, List.nodup_append] at hn
        exact fun h => hn.2.2 h (List.mem_cons_self _ _)
      exact ⟨_, dif_neg hrow, ih.mpr ⟨by simpa using hn, by simpa using hr⟩⟩

theorem flush_singleton {t : Table α key} {row : α} (h : key row ∉ t.rows.map key) :
    ∃ t', t.flush [row] = some t' ∧ t'.rows = t.rows ++ [row] := by
  unfold flush insert
  exact ⟨_, by rw [dif_neg h]; rfl, rfl⟩

theorem flush_eq_none {t : Table α key} {pending : List α} :
    t.flush pending = none ↔ ¬((t.rows ++ pending).map key).Nodup := by
  rw [← not_iff_not, ← ne_eq, Option.ne_none_iff_exists', not_not]
  constructor
  · rintro ⟨t', h⟩
    exact (flush_eq_some.mp h).1
  · exact fun hn => ⟨⟨_, hn⟩, flush_eq_some.mpr ⟨hn, rfl⟩⟩

end Flush

end Table

/-- `@transactional_session` on the outermost call: commit or roll back. -/
def transactional {σ : Type} (f : σ → Except Error σ) (s : σ) : Except Error Unit × σ :=
  match f s with
  | .ok s' => (.ok (), s')
  | .error e => (.error e, s)

theorem transactional_of_ok {σ : Type} {f : σ → Except Error σ} {s s' : σ} (h : f s = .ok s') :
    transactional f s = (.ok (), s') := by
  simp [transactional, h]

theorem transactional_of_error {σ : Type} {f : σ → Except Error σ} {s : σ} {e : Error}
    (h : f s = .error e) : transactional f s = (.error e, s) := by
  simp [transactional, h]

end LoadInjection
