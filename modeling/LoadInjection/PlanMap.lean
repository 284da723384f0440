import LoadInjection.Runs

/-!
# The registry as a map from pairs to states

What the plan table is for: a pair of RSE ids has at most one plan, and the
plan has a state. `PlanMap` is that map, and `Op.Changes` says in its terms
what each call of a run may do to it. An add stores the whole batch of a
permitted issuer, for fresh and distinct pairs in state `WAITING`, or nothing.
A state update sets the state of a pair that has a plan. A delete removes the
pairs it names, and a bulk delete one of whose dicts lacks an id removes
nothing.

`Db.states` reads the map off the table as a lookup by pair does, from the
first row of the pair. Each step of a run of guarded calls changes it as
`Op.Changes` allows (`step_refines`), with no condition on the table. From a
table with at most one plan per pair, `get_injection_plan_state` at every
reachable table answers with the map's state (`registry_refines_plan_map`).
-/

namespace LoadInjection

/-- The state of the plan of each pair of RSE ids, for the pairs that have one. -/
abbrev PlanMap := Value × Value → Option Value

namespace PlanMap

def setState (m : PlanMap) (pair : Value × Value) (state : Value) : PlanMap :=
  fun p => if p = pair then (m p).map fun _ => state else m p

def erase (m : PlanMap) (pairs : List (Value × Value)) : PlanMap :=
  fun p => if p ∈ pairs then none else m p

def insertWaiting (m : PlanMap) (pairs : List (Value × Value)) : PlanMap :=
  fun p => if p ∈ pairs then some loadInjectionStateWaiting else m p

end PlanMap

/-- The map a table stands for: each pair's state is that of its first row. -/
def Db.states (db : Db) : PlanMap := fun pair =>
  (db.loadInjectionPlans.rows.find? fun row => row.pair = pair).map (·.state)

def carriesIds (injectionPlans : List Dict) : Bool :=
  injectionPlans.all fun plan => (plan.lookup "dest_rse_id").isSome && (plan.lookup "src_rse_id").isSome

/-- What a call may do to the map. -/
def Op.Changes (ctx : Context) : Op → PlanMap → PlanMap → Prop
  | .addLoadInjectionPlans plans issuer vo, m, m' => m' = m ∨
    (ctx.hasPermission issuer vo "add_load_injection_plans").allowed = true ∧
      ∃ pairs, plans.mapM (resolvePair ctx · vo) = .ok pairs ∧ pairs.Nodup ∧
        (∀ p ∈ pairs, m p = none) ∧ m' = m.insertWaiting pairs
  | .updateInjectionPlanState src dest newState, m, m' =>
    m' = m.setState (.str src, .str dest) (.str newState)
  | .deleteInjectionPlan src dest, m, m' => m' = m.erase [(.str src, .str dest)]
  | .deleteInjectionPlans plans, m, m' =>
    m' = if carriesIds plans then m.erase (namedPairs plans) else m

def Op.ChangesAll (ctx : Context) : List Op → PlanMap → PlanMap → Prop
  | [], m, m' => m' = m
  | op :: ops, m, m'' => ∃ m', op.Changes ctx m m' ∧ Op.ChangesAll ctx ops m' m''

-- ---------------------------------------------------------------------------
-- The map of a table
-- ---------------------------------------------------------------------------

theorem carriesIds_eq_true {injectionPlans : List Dict} :
    carriesIds injectionPlans = true ↔
      ∀ plan ∈ injectionPlans, plan.lookup "dest_rse_id" ≠ none ∧ plan.lookup "src_rse_id" ≠ none := by
  simp only [carriesIds, List.all_eq_true, Bool.and_eq_true, Option.isSome_iff_ne_none]

theorem states_eq_none {db : Db} {p : Value × Value}
    (h : p ∉ db.loadInjectionPlans.rows.map LoadInjectionPlan.pair) : db.states p = none := by
  simp only [Db.states, Option.map_eq_none', List.find?_eq_none, decide_eq_true_eq]
  exact fun row hrow hp => h (List.mem_map.mpr ⟨row, hrow, hp⟩)

theorem states_append {db db' : Db} {rows : List LoadInjectionPlan}
    (hrows : db'.loadInjectionPlans.rows = db.loadInjectionPlans.rows ++ rows)
    (hnew : ∀ row ∈ rows, row.pair ∉ db.loadInjectionPlans.rows.map LoadInjectionPlan.pair)
    (hwait : ∀ row ∈ rows, row.state = loadInjectionStateWaiting) :
    db'.states = db.states.insertWaiting (rows.map LoadInjectionPlan.pair) := by
  funext p
  simp only [PlanMap.insertWaiting]
  split_ifs with hp
  · obtain ⟨row, hrow, rfl⟩ := List.mem_map.mp hp
    have hold := states_eq_none (hnew row hrow)
    simp only [Db.states, Option.map_eq_none', hrows, List.find?_append] at hold ⊢
    cases hf : rows.find? fun r => r.pair = row.pair with
    | none => exact (List.find?_eq_none.mp hf row hrow (decide_eq_true rfl)).elim
    | some r => simp [hold, hwait r (List.mem_of_find?_eq_some hf)]
  · have hnone : (rows.find? fun r => r.pair = p) = none :=
      List.find?_eq_none.mpr fun r hr hrp => hp (List.mem_map.mpr ⟨r, hr, of_decide_eq_true hrp⟩)
    simp only [Db.states, hrows, List.find?_append, hnone, Option.or_none]

theorem states_update (srcRseId destRseId newState : String) (db : Db) :
    (updateInjectionPlanState srcRseId destRseId newState db).states =
      db.states.setState (.str srcRseId, .str destRseId) (.str newState) := by
  funext p
  simp only [Db.states, updateInjectionPlanState, Table.update_rows, List.find?_map, Option.map_map,
    PlanMap.setState, LoadInjectionPlan.matches_eq]
  have hpred : ((fun row : LoadInjectionPlan => decide (row.pair = p)) ∘ fun row =>
      if decide (row.pair = (.str srcRseId, .str destRseId)) then { row with state := .str newState }
      else row) = fun row => decide (row.pair = p) := by
    funext row
    simp only [Function.comp]
    congr 2
    split <;> rfl
  rw [hpred]
  cases hf : db.loadInjectionPlans.rows.find? fun row => row.pair = p with
  | none => simp only [Option.map_none', ite_self]
  | some row =>
    have hrow := List.find?_some hf
    obtain rfl : row.pair = p := of_decide_eq_true hrow
    simp only [Option.map_some', Function.comp_apply, decide_eq_true_eq]
    split_ifs <;> rfl

theorem states_delete {db : Db} {q : LoadInjectionPlan → Bool} {pairs : List (Value × Value)}
    (hq : ∀ row, q row = decide (row.pair ∈ pairs)) :
    ({ db with loadInjectionPlans := db.loadInjectionPlans.delete q } : Db).states =
      db.states.erase pairs := by
  funext p
  simp only [Db.states, PlanMap.erase, Table.delete_rows, List.find?_filter, hq]
  split_ifs with hp
  · simp only [Option.map_eq_none', List.find?_eq_none]
    intro row _ h
    simp only [Bool.not_eq_true', decide_eq_false_iff_not, decide_eq_true_eq] at h
    exact h.1 (h.2 ▸ hp)
  · congr 2
    funext row
    by_cases h : row.pair = p <;> simp [h, hp]

-- ---------------------------------------------------------------------------
-- The lookup reads the map
-- ---------------------------------------------------------------------------

theorem getInjectionPlanState_eq_states {db : Db} (h : AtMostOnePerPair db)
    (srcRseId destRseId : String) :
    getInjectionPlanState srcRseId destRseId db = .ok (db.states (.str srcRseId, .str destRseId)) := by
  let p : Value × Value := (.str srcRseId, .str destRseId)
  have hle : (db.loadInjectionPlans.rows.filter fun row => row.pair = p).length ≤ 1 := by
    have hsame : ∀ q ∈ (db.loadInjectionPlans.rows.filter fun row => row.pair = p).map
        LoadInjectionPlan.pair, q = p := by
      simp only [List.mem_map, List.mem_filter, decide_eq_true_eq]
      rintro _ ⟨row, ⟨-, hrow⟩, rfl⟩
      exact hrow
    have hn : ((db.loadInjectionPlans.rows.filter fun row => row.pair = p).map
        LoadInjectionPlan.pair).Nodup := h.sublist ((List.filter_sublist _).map _)
    rwa [List.eq_replicate_iff.mpr ⟨rfl, hsame⟩, List.nodup_replicate, List.length_map] at hn
  simp only [getInjectionPlanState, Db.states, LoadInjectionPlan.matches_eq, ← List.filter_head?]
  generalize db.loadInjectionPlans.rows.filter (fun row => row.pair = p) = l at hle ⊢
  rcases l with _ | ⟨row, _ | ⟨row', rest⟩⟩ <;> simp at hle ⊢

-- ---------------------------------------------------------------------------
-- One step, then a run
-- ---------------------------------------------------------------------------

theorem step_of_ok {ctx : Context} {reg reg' : Registry} {op : Op} (h : op.apply ctx reg = .ok reg') :
    step ctx reg op = reg' := by
  rw [step, transactional_of_ok h]

theorem step_of_error {ctx : Context} {reg : Registry} {op : Op} {e : Error}
    (h : op.apply ctx reg = .error e) : step ctx reg op = reg := by
  rw [step, transactional_of_error h]

theorem step_refines {ctx : Context} {reg : Registry} {op : Op} (hg : op.Guarded ctx) :
    op.Changes ctx reg.db.states (step ctx reg op).db.states := by
  cases op with
  | addLoadInjectionPlans plans issuer vo =>
    cases h : Op.apply ctx (.addLoadInjectionPlans plans issuer vo) reg with
    | error e => exact .inl (by rw [step_of_error h])
    | ok reg' =>
      obtain ⟨rows, hrows, hvo, hnodup, hnew, hwait⟩ := addLoadInjectionPlans_fresh hg h
      refine .inr ⟨(addLoadInjectionPlans_eq_ok h).1, _, hvo, hnodup, ?_, ?_⟩
      · intro p hp
        obtain ⟨row, hrow, rfl⟩ := List.mem_map.mp hp
        exact states_eq_none (hnew row hrow)
      · rw [step_of_ok h]
        exact states_append hrows hnew hwait
  | updateInjectionPlanState src dest newState =>
    rw [step_of_ok (show Op.apply ctx (.updateInjectionPlanState src dest newState) reg = .ok _ from rfl)]
    exact states_update src dest newState reg.db
  | deleteInjectionPlan src dest =>
    rw [step_of_ok (by rw [Op.apply, deleteInjectionPlan_eq]; rfl)]
    exact states_delete fun row => by simp [LoadInjectionPlan.matches_eq]
  | deleteInjectionPlans plans =>
    simp only [Op.Changes]
    split_ifs with hc
    · have hids := carriesIds_eq_true.mp hc
      rw [step_of_ok (by rw [Op.apply, deleteInjectionPlans_eq_ok _ hids]; rfl)]
      exact states_delete fun _ => rfl
    · have hmiss : ∃ plan ∈ plans, plan.lookup "dest_rse_id" = none ∨ plan.lookup "src_rse_id" = none := by
        by_contra hn
        simp only [not_exists, not_and, not_or] at hn
        exact hc (carriesIds_eq_true.mpr hn)
      obtain ⟨key, he⟩ := deleteInjectionPlans_eq_error_of_missing reg.db hmiss
      rw [step_of_error (by rw [Op.apply, he]; rfl)]

/-- Along every run of guarded calls from a table with at most one plan per
pair, the registry is a map from pairs to states: each call changes the map
only as it may, and `get_injection_plan_state` reads the map and never
raises. -/
theorem registry_refines_plan_map (ctx : Context) (reg : Registry) (ops : List Op)
    (hi : AtMostOnePerPair reg.db) (hg : ∀ op ∈ ops, op.Guarded ctx) :
    Op.ChangesAll ctx ops reg.db.states (run ctx reg ops).db.states ∧
      ∀ srcRseId destRseId, getInjectionPlanState srcRseId destRseId (run ctx reg ops).db =
        .ok ((run ctx reg ops).db.states (.str srcRseId, .str destRseId)) := by
  induction ops generalizing reg with
  | nil => exact ⟨rfl, getInjectionPlanState_eq_states hi⟩
  | cons op ops ih =>
    have hop := hg op (List.mem_cons_self _ _)
    obtain ⟨hrun, hget⟩ := ih (step ctx reg op) (step_keeps_invariant hop hi)
      fun op' h => hg op' (List.mem_cons_of_mem _ h)
    exact ⟨⟨_, step_refines hop, hrun⟩, hget⟩

theorem registry_refines_plan_map_example :
    let ops : List Op := [.addLoadInjectionPlans [samplePlan "RSE1" "RSE2"] "root" "def",
      .updateInjectionPlanState "id1" "id2" "RUNNING"]
    AtMostOnePerPair Registry.empty.db ∧ (∀ op ∈ ops, op.Guarded sampleContext) ∧
      getInjectionPlanState "id1" "id2" (run sampleContext Registry.empty ops).db =
        .ok (some (.str "RUNNING")) := by
  intro ops
  have hops : ∀ op ∈ ops, op.Guarded sampleContext := by
    simp only [ops, List.mem_cons, List.mem_singleton, List.not_mem_nil, or_false]
    rintro op (rfl | rfl)
    · exact guarded_of_resolves rfl rfl (by decide)
    · trivial
  have hstate : (run sampleContext Registry.empty ops).db.states (.str "id1", .str "id2") =
      some (.str "RUNNING") := by
    decide
  exact ⟨List.nodup_nil, hops,
    ((registry_refines_plan_map sampleContext Registry.empty ops List.nodup_nil hops).2 "id1" "id2").trans
      (congrArg _ hstate)⟩

end LoadInjection
