import LoadInjection.Table

/-!
# The plan registry's tables

`load_injection_plans` holds the live plans and `load_injection_plans_history`
the archived ones. Neither table's model is among the sources. Following the
spec, the live table is keyed by the plan's `(src, dest)` pair plus its
generated identifier, so nothing at the storage level stops two plans for one
pair; the history is an append-only store. A column keeps whatever value the
code hands it, and a history column the code does not set is `none`.

`add_injection_plans` builds each row from a dict, reading the keys in the
order the source passes them, and flushes once; `add_injection_plans_history`
reads the same keys but `plan_id`, so an archived copy never carries the plan
identifier (`addInjectionPlanHistory_appends_record_without_planId`). A bulk
delete removes exactly the plans of the pairs its dicts name, or raises
`KeyError` on a dict without an id and is rolled back
(`delete_injection_plans_removes_named_pairs`).
-/

namespace LoadInjection

structure PlanColumns where
  srcRseId : Value
  destRseId : Value
  injectRate : Value
  state : Value
  interval : Value
  startTime : Value
  endTime : Value
  fudge : Value
  maxInjection : Value
  expirationDelay : Value
  bigFirst : Value
  ruleLifetime : Value
  comments : Value
  dryRun : Value
  deriving DecidableEq, Repr

structure LoadInjectionPlan extends PlanColumns where
  planId : Value
  deriving DecidableEq, Repr

structure LoadInjectionPlansHistory extends PlanColumns where
  planId : Option Value
  deriving DecidableEq, Repr

def LoadInjectionPlan.pair (plan : LoadInjectionPlan) : Value × Value := (plan.srcRseId, plan.destRseId)

/-- Modelled from the spec: the live table is keyed by the `(src, dest)` pair
plus the generated plan identifier. -/
def LoadInjectionPlan.key (plan : LoadInjectionPlan) : Value × Value × Value :=
  (plan.srcRseId, plan.destRseId, plan.planId)

abbrev PlanTable := Table LoadInjectionPlan LoadInjectionPlan.key

structure Db where
  loadInjectionPlans : PlanTable
  loadInjectionPlansHistory : List LoadInjectionPlansHistory

def LoadInjectionPlan.toDict (plan : LoadInjectionPlan) : Dict :=
  [("plan_id", plan.planId), ("src_rse_id", plan.srcRseId), ("dest_rse_id", plan.destRseId),
   ("inject_rate", plan.injectRate), ("state", plan.state), ("interval", plan.interval),
   ("start_time", plan.startTime), ("end_time", plan.endTime), ("fudge", plan.fudge),
   ("max_injection", plan.maxInjection), ("expiration_delay", plan.expirationDelay),
   ("big_first", plan.bigFirst), ("rule_lifetime", plan.ruleLifetime),
   ("comments", plan.comments), ("dry_run", plan.dryRun)]

@[simp] theorem LoadInjectionPlan.toDict_get_src (plan : LoadInjectionPlan) :
    plan.toDict.get "src_rse_id" = plan.srcRseId := rfl

@[simp] theorem LoadInjectionPlan.toDict_get_dest (plan : LoadInjectionPlan) :
    plan.toDict.get "dest_rse_id" = plan.destRseId := rfl

-- ---------------------------------------------------------------------------
-- Rows from dicts
-- ---------------------------------------------------------------------------

def PlanColumns.ofDict (plan : Dict) : Except Error PlanColumns := do
  let destRseId ← plan.getItem "dest_rse_id"
  let srcRseId ← plan.getItem "src_rse_id"
  let injectRate ← plan.getItem "inject_rate"
  let state ← plan.getItem "state"
  let interval ← plan.getItem "interval"
  let startTime ← plan.getItem "start_time"
  let endTime ← plan.getItem "end_time"
  let fudge ← plan.getItem "fudge"
  let maxInjection ← plan.getItem "max_injection"
  let expirationDelay ← plan.getItem "expiration_delay"
  let bigFirst ← plan.getItem "big_first"
  let ruleLifetime ← plan.getItem "rule_lifetime"
  let comments ← plan.getItem "comments"
  let dryRun ← plan.getItem "dry_run"
  pure { srcRseId, destRseId, injectRate, state, interval, startTime, endTime, fudge,
         maxInjection, expirationDelay, bigFirst, ruleLifetime, comments, dryRun }

def LoadInjectionPlan.ofDict (plan : Dict) : Except Error LoadInjectionPlan := do
  let planId ← plan.getItem "plan_id"
  let columns ← PlanColumns.ofDict plan
  pure { toPlanColumns := columns, planId }

def LoadInjectionPlansHistory.ofDict (plan : Dict) : Except Error LoadInjectionPlansHistory := do
  let columns ← PlanColumns.ofDict plan
  pure { toPlanColumns := columns, planId := none }

theorem PlanColumns.ofDict_eq_ok {plan : Dict} {c : PlanColumns} :
    PlanColumns.ofDict plan = .ok c ↔
      plan.lookup "dest_rse_id" = some c.destRseId ∧ plan.lookup "src_rse_id" = some c.srcRseId ∧
      plan.lookup "inject_rate" = some c.injectRate ∧ plan.lookup "state" = some c.state ∧
      plan.lookup "interval" = some c.interval ∧ plan.lookup "start_time" = some c.startTime ∧
      plan.lookup "end_time" = some c.endTime ∧ plan.lookup "fudge" = some c.fudge ∧
      plan.lookup "max_injection" = some c.maxInjection ∧
      plan.lookup "expiration_delay" = some c.expirationDelay ∧
      plan.lookup "big_first" = some c.bigFirst ∧ plan.lookup "rule_lifetime" = some c.ruleLifetime ∧
      plan.lookup "comments" = some c.comments ∧ plan.lookup "dry_run" = some c.dryRun := by
  simp only [PlanColumns.ofDict, bind_eq_ok, Dict.getItem_eq_ok, pure_eq_ok]
  constructor
  · rintro ⟨_, h₁, _, h₂, _, h₃, _, h₄, _, h₅, _, h₆, _, h₇, _, h₈, _, h₉, _, h₁₀, _, h₁₁, _, h₁₂,
      _, h₁₃, _, h₁₄, rfl⟩
    exact ⟨h₁, h₂, h₃, h₄, h₅, h₆, h₇, h₈, h₉, h₁₀, h₁₁, h₁₂, h₁₃, h₁₄⟩
  · rintro ⟨h₁, h₂, h₃, h₄, h₅, h₆, h₇, h₈, h₉, h₁₀, h₁₁, h₁₂, h₁₃, h₁₄⟩
    exact ⟨_, h₁, _, h₂, _, h₃, _, h₄, _, h₅, _, h₆, _, h₇, _, h₈, _, h₉, _, h₁₀, _, h₁₁, _, h₁₂,
      _, h₁₃, _, h₁₄, rfl⟩

theorem LoadInjectionPlan.ofDict_eq_ok {plan : Dict} {row : LoadInjectionPlan} :
    LoadInjectionPlan.ofDict plan = .ok row ↔
      plan.lookup "plan_id" = some row.planId ∧ PlanColumns.ofDict plan = .ok row.toPlanColumns := by
  obtain ⟨c, planId⟩ := row
  simp only [LoadInjectionPlan.ofDict, bind_eq_ok, Dict.getItem_eq_ok, pure_eq_ok,
    LoadInjectionPlan.mk.injEq]
  constructor
  · rintro ⟨_, h, _, hc, rfl, rfl⟩
    exact ⟨h, hc⟩
  · rintro ⟨h, hc⟩
    exact ⟨_, h, _, hc, rfl, rfl⟩

theorem LoadInjectionPlan.ofDict_pair {plan : Dict} {row : LoadInjectionPlan}
    (h : LoadInjectionPlan.ofDict plan = .ok row) :
    plan.lookup "src_rse_id" = some row.srcRseId ∧ plan.lookup "dest_rse_id" = some row.destRseId := by
  obtain ⟨-, hc⟩ := LoadInjectionPlan.ofDict_eq_ok.mp h
  obtain ⟨hd, hs, -⟩ := PlanColumns.ofDict_eq_ok.mp hc
  exact ⟨hs, hd⟩

theorem LoadInjectionPlansHistory.ofDict_eq_ok {plan : Dict} {row : LoadInjectionPlansHistory} :
    LoadInjectionPlansHistory.ofDict plan = .ok row ↔
      PlanColumns.ofDict plan = .ok row.toPlanColumns ∧ row.planId = none := by
  obtain ⟨c, planId⟩ := row
  simp only [LoadInjectionPlansHistory.ofDict, bind_eq_ok, pure_eq_ok,
    LoadInjectionPlansHistory.mk.injEq]
  constructor
  · rintro ⟨_, hc, rfl, rfl⟩
    exact ⟨hc, rfl⟩
  · rintro ⟨hc, rfl⟩
    exact ⟨_, hc, rfl, rfl⟩

-- ---------------------------------------------------------------------------
-- The core's plan functions
-- ---------------------------------------------------------------------------

def getInjectionPlans (db : Db) (state : Option String) : List Dict :=
  match state with
  | some s =>
    if s = "" then db.loadInjectionPlans.rows.map (·.toDict)
    else (db.loadInjectionPlans.rows.filter fun plan => plan.state == .str s).map (·.toDict)
  | none => db.loadInjectionPlans.rows.map (·.toDict)

def addInjectionPlans (injectionPlans : List Dict) (db : Db) : Except Error Db := do
  let newPlans ← injectionPlans.mapM LoadInjectionPlan.ofDict
  match db.loadInjectionPlans.flush newPlans with
  | some plans => pure { db with loadInjectionPlans := plans }
  | none => throw .rucioException

def addInjectionPlansHistory (injectionPlans : List Dict) (db : Db) : Except Error Db := do
  let newPlans ← injectionPlans.mapM LoadInjectionPlansHistory.ofDict
  pure { db with loadInjectionPlansHistory := db.loadInjectionPlansHistory ++ newPlans }

structure InjectionPlanArgs where
  planId : Value
  srcRseId : Value
  destRseId : Value
  injectRate : Value
  interval : Value
  startTime : Value
  endTime : Value
  fudge : Value := .float 0
  /-- The double nearest to `0.2`. -/
  maxInjection : Value := .float (3602879701896397 / 18014398509481984)
  expirationDelay : Value := .int 1800
  bigFirst : Value := .bool false
  ruleLifetime : Value := .int 3600
  comments : Value := .none
  dryRun : Value := .bool false
  state : Value := .none

/-- The arguments of `add_injection_plan_history`: the same, but `interval`
defaults to 900. -/
structure InjectionPlanHistoryArgs extends InjectionPlanArgs where
  interval := .int 900

def InjectionPlanArgs.toDict (args : InjectionPlanArgs) : Dict :=
  [("plan_id", args.planId), ("src_rse_id", args.srcRseId), ("dest_rse_id", args.destRseId),
   ("inject_rate", args.injectRate), ("state", args.state), ("interval", args.interval),
   ("start_time", args.startTime), ("end_time", args.endTime), ("fudge", args.fudge),
   ("max_injection", args.maxInjection), ("expiration_delay", args.expirationDelay),
   ("big_first", args.bigFirst), ("rule_lifetime", args.ruleLifetime),
   ("comments", args.comments), ("dry_run", args.dryRun)]

def addInjectionPlan (args : InjectionPlanArgs) : Db → Except Error Db :=
  addInjectionPlans [args.toDict]

def addInjectionPlanHistory (args : InjectionPlanHistoryArgs) : Db → Except Error Db :=
  addInjectionPlansHistory [args.toDict]

/-- The rows a `WHERE dest_rse_id == ... AND src_rse_id == ...` clause selects. -/
def LoadInjectionPlan.matches (destRseId srcRseId : Value) (row : LoadInjectionPlan) : Bool :=
  row.destRseId == destRseId && row.srcRseId == srcRseId

def deleteInjectionPlans (injectionPlans : List Dict) (db : Db) : Except Error Db :=
  injectionPlans.foldlM (fun db plan => do
    let destRseId ← plan.getItem "dest_rse_id"
    let srcRseId ← plan.getItem "src_rse_id"
    pure { db with loadInjectionPlans := db.loadInjectionPlans.delete (·.matches destRseId srcRseId) })
    db

def deleteInjectionPlan (srcRseId destRseId : String) : Db → Except Error Db :=
  deleteInjectionPlans [[("src_rse_id", .str srcRseId), ("dest_rse_id", .str destRseId)]]

def namedPairs (injectionPlans : List Dict) : List (Value × Value) :=
  injectionPlans.map fun plan => (plan.get "src_rse_id", plan.get "dest_rse_id")

def updateInjectionPlanState (srcRseId destRseId newState : String) (db : Db) : Db :=
  { db with
    loadInjectionPlans := db.loadInjectionPlans.update (·.matches (.str destRseId) (.str srcRseId))
      (fun row => { row with state := .str newState }) fun _ => rfl }

/-- `scalar_one_or_none()` over the plans of the pair. -/
def getInjectionPlanState (srcRseId destRseId : String) (db : Db) : Except Error (Option Value) :=
  match db.loadInjectionPlans.rows.filter (·.matches (.str destRseId) (.str srcRseId)) with
  | [] => .ok none
  | [row] => .ok (some row.state)
  | _ => .error .multipleResultsFound

-- ---------------------------------------------------------------------------
-- One lemma per function
-- ---------------------------------------------------------------------------

theorem LoadInjectionPlan.matches_eq (row : LoadInjectionPlan) (srcRseId destRseId : Value) :
    row.matches destRseId srcRseId = decide (row.pair = (srcRseId, destRseId)) :=
  Bool.eq_iff_iff.mpr (by simp [LoadInjectionPlan.matches, LoadInjectionPlan.pair, and_comm])

theorem addInjectionPlans_eq_ok {injectionPlans : List Dict} {db db' : Db} :
    addInjectionPlans injectionPlans db = .ok db' ↔
      ∃ newPlans, injectionPlans.mapM LoadInjectionPlan.ofDict = .ok newPlans ∧
        db.loadInjectionPlans.flush newPlans = some db'.loadInjectionPlans ∧
        db'.loadInjectionPlansHistory = db.loadInjectionPlansHistory := by
  obtain ⟨plans', history'⟩ := db'
  simp only [addInjectionPlans, bind_eq_ok]
  refine exists_congr fun newPlans => and_congr_right fun _ => ?_
  cases db.loadInjectionPlans.flush newPlans with
  | none => simp [throw, throwThe, MonadExceptOf.throw]
  | some plans =>
    simp only [pure_eq_ok, Db.mk.injEq, Option.some.injEq]
    exact and_congr Iff.rfl eq_comm

theorem addInjectionPlans_rows {injectionPlans : List Dict} {db db' : Db}
    (h : addInjectionPlans injectionPlans db = .ok db') :
    ∃ newPlans, injectionPlans.mapM LoadInjectionPlan.ofDict = .ok newPlans ∧
      db'.loadInjectionPlans.rows = db.loadInjectionPlans.rows ++ newPlans ∧
      db'.loadInjectionPlansHistory = db.loadInjectionPlansHistory := by
  obtain ⟨newPlans, hm, hf, hh⟩ := addInjectionPlans_eq_ok.mp h
  exact ⟨newPlans, hm, (Table.flush_eq_some.mp hf).2, hh⟩

theorem deleteInjectionPlans_sublist {injectionPlans : List Dict} {db db' : Db}
    (h : deleteInjectionPlans injectionPlans db = .ok db') :
    db'.loadInjectionPlans.rows.Sublist db.loadInjectionPlans.rows ∧
      db'.loadInjectionPlansHistory = db.loadInjectionPlansHistory := by
  induction injectionPlans generalizing db with
  | nil =>
    simp only [deleteInjectionPlans, List.foldlM_nil, pure_eq_ok] at h
    subst h
    exact ⟨List.Sublist.refl _, rfl⟩
  | cons plan rest ih =>
    simp only [deleteInjectionPlans, List.foldlM_cons, bind_eq_ok, pure_eq_ok] at h
    obtain ⟨_, ⟨_, _, _, _, rfl⟩, h⟩ := h
    obtain ⟨hs, hh⟩ := ih h
    exact ⟨hs.trans (List.filter_sublist _), hh⟩

theorem deleteInjectionPlans_eq_ok {injectionPlans : List Dict} (db : Db)
    (h : ∀ plan ∈ injectionPlans, plan.lookup "dest_rse_id" ≠ none ∧ plan.lookup "src_rse_id" ≠ none) :
    deleteInjectionPlans injectionPlans db = .ok { db with
      loadInjectionPlans := db.loadInjectionPlans.delete fun row => row.pair ∈ namedPairs injectionPlans } := by
  induction injectionPlans generalizing db with
  | nil => simp [deleteInjectionPlans, namedPairs, pure, Except.pure]
  | cons plan rest ih =>
    obtain ⟨hd, hs⟩ := h plan (List.mem_cons_self _ _)
    obtain ⟨d, hd⟩ := Option.ne_none_iff_exists'.mp hd
    obtain ⟨s, hs⟩ := Option.ne_none_iff_exists'.mp hs
    have hrest := ih { db with loadInjectionPlans := db.loadInjectionPlans.delete (·.matches d s) }
      fun p hp => h p (List.mem_cons_of_mem _ hp)
    simp only [deleteInjectionPlans, List.foldlM_cons, Dict.getItem_eq_ok.mpr hd, Dict.getItem_eq_ok.mpr hs,
      bind, Except.bind, pure, Except.pure] at hrest ⊢
    rw [hrest, Table.delete_delete]
    congr 3
    funext row
    simp only [LoadInjectionPlan.matches_eq, namedPairs, List.map_cons, List.mem_cons, Dict.get, hd, hs,
      Option.getD_some, Bool.decide_or]

theorem deleteInjectionPlans_eq_error_of_missing {injectionPlans : List Dict} (db : Db)
    (h : ∃ plan ∈ injectionPlans, plan.lookup "dest_rse_id" = none ∨ plan.lookup "src_rse_id" = none) :
    ∃ key, deleteInjectionPlans injectionPlans db = .error (.keyError key) := by
  induction injectionPlans generalizing db with
  | nil => simp at h
  | cons plan rest ih =>
    simp only [deleteInjectionPlans, List.foldlM_cons]
    cases hd : plan.lookup "dest_rse_id" with
    | none => exact ⟨"dest_rse_id", by simp [Dict.getItem, hd, bind, Except.bind]⟩
    | some d =>
      cases hs : plan.lookup "src_rse_id" with
      | none => exact ⟨"src_rse_id", by simp [Dict.getItem, hd, hs, bind, Except.bind]⟩
      | some s =>
        have hrest : ∃ p ∈ rest, p.lookup "dest_rse_id" = none ∨ p.lookup "src_rse_id" = none := by
          obtain ⟨p, hp, hnone⟩ := h
          rcases List.mem_cons.mp hp with rfl | hp
          · simp [hd, hs] at hnone
          · exact ⟨p, hp, hnone⟩
        simpa [Dict.getItem, hd, hs, bind, Except.bind, pure, Except.pure] using ih _ hrest

/-- `delete_injection_plans(B)` in its session: when every dict of `B` carries
both ids, the plans gone are exactly those whose `(src, dest)` pair a dict of
`B` names, and the rest of the database is as it was; otherwise it raises
`KeyError` and nothing changes. -/
theorem delete_injection_plans_removes_named_pairs (injectionPlans : List Dict) (db : Db) :
    ((∀ plan ∈ injectionPlans, plan.lookup "dest_rse_id" ≠ none ∧ plan.lookup "src_rse_id" ≠ none) →
      transactional (deleteInjectionPlans injectionPlans) db =
        (.ok (), { db with
          loadInjectionPlans := db.loadInjectionPlans.delete fun row =>
            row.pair ∈ namedPairs injectionPlans })) ∧
    ((∃ plan ∈ injectionPlans, plan.lookup "dest_rse_id" = none ∨ plan.lookup "src_rse_id" = none) →
      ∃ key, transactional (deleteInjectionPlans injectionPlans) db = (.error (.keyError key), db)) := by
  refine ⟨fun h => transactional_of_ok (deleteInjectionPlans_eq_ok db h), fun h => ?_⟩
  obtain ⟨key, hk⟩ := deleteInjectionPlans_eq_error_of_missing db h
  exact ⟨key, transactional_of_error hk⟩

theorem deleteInjectionPlan_eq (srcRseId destRseId : String) (db : Db) :
    deleteInjectionPlan srcRseId destRseId db =
      .ok { db with loadInjectionPlans :=
        db.loadInjectionPlans.delete (·.matches (.str destRseId) (.str srcRseId)) } := rfl

@[simp] theorem updateInjectionPlanState_pairs (srcRseId destRseId newState : String) (db : Db) :
    (updateInjectionPlanState srcRseId destRseId newState db).loadInjectionPlans.rows.map
      LoadInjectionPlan.pair = db.loadInjectionPlans.rows.map LoadInjectionPlan.pair := by
  simp only [updateInjectionPlanState, Table.update_rows, List.map_map]
  exact List.map_congr_left fun row _ => by by_cases h : row.matches (.str destRseId) (.str srcRseId) <;> simp [h, LoadInjectionPlan.pair]

@[simp] theorem updateInjectionPlanState_history (srcRseId destRseId newState : String) (db : Db) :
    (updateInjectionPlanState srcRseId destRseId newState db).loadInjectionPlansHistory =
      db.loadInjectionPlansHistory := rfl

theorem getInjectionPlanState_eq_error {srcRseId destRseId : String} {db : Db} {e : Error} :
    getInjectionPlanState srcRseId destRseId db = .error e ↔
      2 ≤ (db.loadInjectionPlans.rows.filter (·.matches (.str destRseId) (.str srcRseId))).length ∧
        .multipleResultsFound = e := by
  unfold getInjectionPlanState
  generalize db.loadInjectionPlans.rows.filter (·.matches (.str destRseId) (.str srcRseId)) = l
  rcases l with _ | ⟨r, _ | ⟨r', rest⟩⟩ <;> simp

-- ---------------------------------------------------------------------------
-- Archiving
-- ---------------------------------------------------------------------------

def InjectionPlanArgs.columns (args : InjectionPlanArgs) : PlanColumns :=
  ⟨args.srcRseId, args.destRseId, args.injectRate, args.state, args.interval, args.startTime,
   args.endTime, args.fudge, args.maxInjection, args.expirationDelay, args.bigFirst,
   args.ruleLifetime, args.comments, args.dryRun⟩

theorem PlanColumns.ofDict_toDict (args : InjectionPlanArgs) :
    PlanColumns.ofDict args.toDict = .ok args.columns :=
  PlanColumns.ofDict_eq_ok.mpr ⟨rfl, rfl, rfl, rfl, rfl, rfl, rfl, rfl, rfl, rfl, rfl, rfl, rfl, rfl⟩

/-- The fields of a live plan, as a caller passes them to
`add_injection_plan_history`. -/
def LoadInjectionPlan.historyArgs (plan : LoadInjectionPlan) : InjectionPlanHistoryArgs :=
  { planId := plan.planId, srcRseId := plan.srcRseId, destRseId := plan.destRseId,
    injectRate := plan.injectRate, interval := plan.interval, startTime := plan.startTime,
    endTime := plan.endTime, fudge := plan.fudge, maxInjection := plan.maxInjection,
    expirationDelay := plan.expirationDelay, bigFirst := plan.bigFirst,
    ruleLifetime := plan.ruleLifetime, comments := plan.comments, dryRun := plan.dryRun,
    state := plan.state }

/-- Archiving a live plan appends one record with every column of the plan
but the plan identifier, which the record never gets, and touches nothing
else. -/
theorem addInjectionPlanHistory_appends_record_without_planId (db : Db) (plan : LoadInjectionPlan) :
    transactional (addInjectionPlanHistory plan.historyArgs) db =
      (.ok (), { db with loadInjectionPlansHistory :=
        db.loadInjectionPlansHistory ++ [{ toPlanColumns := plan.toPlanColumns, planId := none }] }) := by
  have h : LoadInjectionPlansHistory.ofDict plan.historyArgs.toDict =
      .ok { toPlanColumns := plan.toPlanColumns, planId := none } :=
    LoadInjectionPlansHistory.ofDict_eq_ok.mpr ⟨PlanColumns.ofDict_toDict _, rfl⟩
  apply transactional_of_ok
  simp only [addInjectionPlanHistory, addInjectionPlansHistory, List.mapM_cons, List.mapM_nil, h]
  rfl

end LoadInjection
