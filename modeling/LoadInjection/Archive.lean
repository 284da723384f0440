import LoadInjection.Runs

/-!
# Archiving the plans of a state

The spec's lifecycle moves a plan that has left the live set into the
history. The core has the three calls for it: `get_injection_plans(state)`,
whose dicts carry every column under its name; `add_injection_plans_history`,
which reads those keys; and `delete_injection_plans`, which deletes by the
`(src, dest)` pair of each dict. Run in one session on the dicts of one state,
they move exactly the plans of that state, provided the table holds one plan
per pair (`archiving_moves_listed_plans_to_history`): the live table keeps the
other plans in their order, and the history gains one record per archived
plan, with every column but the plan id.

The delete matches by pair alone (`archive_deletes_listed_pairs`). A plan of
another state that shares its pair with an archived plan would be deleted
too, and never archived. One plan per pair rules that out.
-/

namespace LoadInjection

/-- The rows `get_injection_plans(state)` returns: every row when `state` is
`None` or empty, else the rows in that state. -/
def LoadInjectionPlan.listedFor (state : Option String) (row : LoadInjectionPlan) : Bool :=
  match state with
  | some s => s = "" || row.state == .str s
  | none => true

theorem getInjectionPlans_eq_filter (db : Db) (state : Option String) :
    getInjectionPlans db state =
      (db.loadInjectionPlans.rows.filter (LoadInjectionPlan.listedFor state)).map LoadInjectionPlan.toDict := by
  cases state with
  | none =>
    rw [getInjectionPlans]
    exact congrArg (List.map LoadInjectionPlan.toDict) (List.filter_eq_self.mpr fun _ _ => rfl).symm
  | some s =>
    by_cases hs : s = ""
    · rw [getInjectionPlans, if_pos hs]
      exact congrArg (List.map LoadInjectionPlan.toDict)
        (List.filter_eq_self.mpr fun _ _ => by simp [LoadInjectionPlan.listedFor, hs]).symm
    · rw [getInjectionPlans, if_neg hs]
      exact congrArg (List.map LoadInjectionPlan.toDict)
        (List.filter_congr fun _ _ => by simp [LoadInjectionPlan.listedFor, hs])

-- ---------------------------------------------------------------------------
-- The dicts of `to_dict()` read back
-- ---------------------------------------------------------------------------

theorem LoadInjectionPlan.toDict_columns (row : LoadInjectionPlan) :
    PlanColumns.ofDict row.toDict = .ok row.toPlanColumns :=
  PlanColumns.ofDict_eq_ok.mpr ⟨rfl, rfl, rfl, rfl, rfl, rfl, rfl, rfl, rfl, rfl, rfl, rfl, rfl, rfl⟩

theorem namedPairs_toDict (rows : List LoadInjectionPlan) :
    namedPairs (rows.map LoadInjectionPlan.toDict) = rows.map LoadInjectionPlan.pair := by
  simp only [namedPairs, List.map_map]
  rfl

theorem addInjectionPlansHistory_toDict (rows : List LoadInjectionPlan) (db : Db) :
    addInjectionPlansHistory (rows.map LoadInjectionPlan.toDict) db =
      .ok { db with loadInjectionPlansHistory := db.loadInjectionPlansHistory ++
        (rows.map fun row => { toPlanColumns := row.toPlanColumns, planId := none }) } := by
  have h : (rows.map LoadInjectionPlan.toDict).mapM LoadInjectionPlansHistory.ofDict =
      .ok (rows.map fun row => { toPlanColumns := row.toPlanColumns, planId := none }) :=
    mapM_eq_ok.mpr <| List.forall₂_map_left_iff.mpr <| List.forall₂_map_right_iff.mpr <|
      List.forall₂_same.mpr fun row _ =>
        LoadInjectionPlansHistory.ofDict_eq_ok.mpr ⟨row.toDict_columns, rfl⟩
  simp only [addInjectionPlansHistory, h, bind, Except.bind, pure, Except.pure]

theorem deleteInjectionPlans_toDict (rows : List LoadInjectionPlan) (db : Db) :
    deleteInjectionPlans (rows.map LoadInjectionPlan.toDict) db =
      .ok { db with loadInjectionPlans :=
        db.loadInjectionPlans.delete fun row => row.pair ∈ rows.map LoadInjectionPlan.pair } := by
  have hids : ∀ plan ∈ rows.map LoadInjectionPlan.toDict,
      plan.lookup "dest_rse_id" ≠ none ∧ plan.lookup "src_rse_id" ≠ none := by
    intro plan hplan
    obtain ⟨row, -, rfl⟩ := List.mem_map.mp hplan
    exact ⟨Option.some_ne_none _, Option.some_ne_none _⟩
  rw [deleteInjectionPlans_eq_ok db hids, namedPairs_toDict]

-- ---------------------------------------------------------------------------
-- The archive
-- ---------------------------------------------------------------------------

theorem archive_deletes_listed_pairs (state : Option String) (db : Db) :
    let listed := db.loadInjectionPlans.rows.filter (LoadInjectionPlan.listedFor state)
    let plans := getInjectionPlans db state
    (addInjectionPlansHistory plans db >>= deleteInjectionPlans plans) =
      .ok { loadInjectionPlans := db.loadInjectionPlans.delete fun row =>
              row.pair ∈ listed.map LoadInjectionPlan.pair
            loadInjectionPlansHistory := db.loadInjectionPlansHistory ++
              (listed.map fun row => { toPlanColumns := row.toPlanColumns, planId := none }) } := by
  intro listed plans
  simp only [plans, listed, getInjectionPlans_eq_filter, addInjectionPlansHistory_toDict, bind, Except.bind,
    deleteInjectionPlans_toDict]

theorem pair_mem_filter_iff {rows : List LoadInjectionPlan} (h : (rows.map LoadInjectionPlan.pair).Nodup)
    {p : LoadInjectionPlan → Bool} {row : LoadInjectionPlan} (hrow : row ∈ rows) :
    row.pair ∈ (rows.filter p).map LoadInjectionPlan.pair ↔ p row = true := by
  constructor
  · intro hin
    obtain ⟨r, hr, he⟩ := List.mem_map.mp hin
    obtain ⟨hr, hp⟩ := List.mem_filter.mp hr
    exact List.inj_on_of_nodup_map h hr hrow he ▸ hp
  · exact fun hp => List.mem_map_of_mem _ (List.mem_filter.mpr ⟨hrow, hp⟩)

/-- Archiving the plans `get_injection_plans(state)` returns, in one session:
copy them into the history, then delete them. On a table with one plan per
pair the live table keeps exactly the other plans, in their order, and the
history gains one record per archived plan, in the same order, with every
column of the plan but its identifier. -/
theorem archiving_moves_listed_plans_to_history (state : Option String) (db : Db)
    (h : AtMostOnePerPair db) :
    let plans := getInjectionPlans db state
    transactional (fun d => addInjectionPlansHistory plans d >>= deleteInjectionPlans plans) db =
      (.ok (), { loadInjectionPlans := db.loadInjectionPlans.delete (LoadInjectionPlan.listedFor state)
                 loadInjectionPlansHistory := db.loadInjectionPlansHistory ++
                   (db.loadInjectionPlans.rows.filter (LoadInjectionPlan.listedFor state)).map
                     fun row => { toPlanColumns := row.toPlanColumns, planId := none } }) := by
  intro plans
  have hsame : (db.loadInjectionPlans.delete fun row => row.pair ∈
      (db.loadInjectionPlans.rows.filter (LoadInjectionPlan.listedFor state)).map LoadInjectionPlan.pair) =
      db.loadInjectionPlans.delete (LoadInjectionPlan.listedFor state) :=
    Table.ext_rows <| List.filter_congr fun row hrow =>
      congrArg (!·) (Bool.eq_iff_iff.mpr (decide_eq_true_iff.trans (pair_mem_filter_iff h hrow)))
  rw [transactional_of_ok (archive_deletes_listed_pairs state db), hsame]

theorem archiving_moves_listed_plans_to_history_example :
    let db := (run sampleContext Registry.empty
      [.addLoadInjectionPlans [samplePlan "RSE1" "RSE2"] "root" "def",
       .addLoadInjectionPlans [samplePlan "RSE2" "RSE1"] "root" "def",
       .updateInjectionPlanState "id1" "id2" "COMPLETED"]).db
    let plans := getInjectionPlans db (some "COMPLETED")
    AtMostOnePerPair db ∧
      transactional (fun d => addInjectionPlansHistory plans d >>= deleteInjectionPlans plans) db =
        (.ok (), { loadInjectionPlans := db.loadInjectionPlans.delete (LoadInjectionPlan.listedFor (some "COMPLETED"))
                   loadInjectionPlansHistory := db.loadInjectionPlansHistory ++
                     (db.loadInjectionPlans.rows.filter (LoadInjectionPlan.listedFor (some "COMPLETED"))).map
                       fun row => { toPlanColumns := row.toPlanColumns, planId := none } }) := by
  intro db plans
  have h : AtMostOnePerPair db := by decide
  exact ⟨h, archiving_moves_listed_plans_to_history (some "COMPLETED") db h⟩

end LoadInjection
