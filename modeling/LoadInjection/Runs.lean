import LoadInjection.Gateway

/-!
# Sequential runs of the registry

A run applies calls of `add_load_injection_plans`, `update_injection_plan_state`,
`delete_injection_plan` and `delete_injection_plans` one after the other,
each in sessions of its own, so a call that raises leaves the registry as it
was. `AtMostOnePerPair` is the spec's uniqueness invariant; it is what keeps
`scalar_one_or_none` in `get_injection_plan_state` from meeting two rows.

The code does not keep it. A batch that repeats a pair passes the duplicate
check, which sees only the plans stored before the call
(`batch_repeating_pair_breaks_uniqueness`), and so does a plan whose names
resolve to other ids in the default VO than in its own
(`resubmission_in_other_vo_not_rejected`). Along a run whose batches have
neither defect, every reachable table keeps the invariant
(`run_keeps_one_plan_per_pair`).
-/

namespace LoadInjection

inductive Op where
  | addLoadInjectionPlans (injectionPlans : List Dict) (issuer vo : String)
  | updateInjectionPlanState (srcRseId destRseId newState : String)
  | deleteInjectionPlan (srcRseId destRseId : String)
  | deleteInjectionPlans (injectionPlans : List Dict)

def Op.apply (ctx : Context) : Op → Registry → Except Error Registry
  | .addLoadInjectionPlans plans issuer vo, reg =>
    LoadInjection.addLoadInjectionPlans ctx plans issuer vo reg
  | .updateInjectionPlanState src dest newState, reg =>
    .ok { reg with db := LoadInjection.updateInjectionPlanState src dest newState reg.db }
  | .deleteInjectionPlan src dest, reg =>
    (fun db => { reg with db }) <$> LoadInjection.deleteInjectionPlan src dest reg.db
  | .deleteInjectionPlans plans, reg =>
    (fun db => { reg with db }) <$> LoadInjection.deleteInjectionPlans plans reg.db

def step (ctx : Context) (reg : Registry) (op : Op) : Registry :=
  (transactional (op.apply ctx) reg).2

def run (ctx : Context) (reg : Registry) (ops : List Op) : Registry :=
  ops.foldl (step ctx) reg

def AtMostOnePerPair (db : Db) : Prop :=
  (db.loadInjectionPlans.rows.map LoadInjectionPlan.pair).Nodup

instance (db : Db) : Decidable (AtMostOnePerPair db) :=
  inferInstanceAs (Decidable (List.Nodup _))

/-- A batch the duplicate check can guard: its names resolve to the same pairs
in the request's VO and in the default VO, and no two of its plans share a
pair. -/
def Guarded (ctx : Context) (plans : List Dict) (vo : String) : Prop :=
  ∀ pairs, plans.mapM (resolvePair ctx · vo) = .ok pairs →
    plans.mapM (resolvePair ctx · ctx.defaultVo) = .ok pairs ∧ pairs.Nodup

def Op.Guarded (ctx : Context) : Op → Prop
  | .addLoadInjectionPlans plans _ vo => LoadInjection.Guarded ctx plans vo
  | _ => True

theorem guarded_of_resolves {ctx : Context} {plans : List Dict} {vo : String}
    {pairs : List (Value × Value)} (hvo : plans.mapM (resolvePair ctx · vo) = .ok pairs)
    (hdef : plans.mapM (resolvePair ctx · ctx.defaultVo) = .ok pairs) (hn : pairs.Nodup) :
    Guarded ctx plans vo := fun _ h => Except.ok.inj (hvo.symm.trans h) ▸ ⟨hdef, hn⟩

theorem run_cons (ctx : Context) (reg : Registry) (op : Op) (ops : List Op) :
    run ctx reg (op :: ops) = run ctx (step ctx reg op) ops := rfl

-- ---------------------------------------------------------------------------
-- The invariant and the lookup
-- ---------------------------------------------------------------------------

/-- Under the invariant the pair lookup meets at most one row. -/
theorem getInjectionPlanState_of_atMostOnePerPair {db : Db} (h : AtMostOnePerPair db)
    (srcRseId destRseId : String) :
    getInjectionPlanState srcRseId destRseId db ≠ .error .multipleResultsFound := by
  let selected := db.loadInjectionPlans.rows.filter (·.matches (.str destRseId) (.str srcRseId))
  have hsame : ∀ p ∈ selected.map LoadInjectionPlan.pair, p = (.str srcRseId, .str destRseId) := by
    simp only [selected, List.mem_map, List.mem_filter, LoadInjectionPlan.matches, Bool.and_eq_true,
      beq_iff_eq]
    rintro _ ⟨row, ⟨-, hd, hs⟩, rfl⟩
    simp [LoadInjectionPlan.pair, hs, hd]
  have hnodup : (selected.map LoadInjectionPlan.pair).Nodup :=
    h.sublist ((List.filter_sublist _).map LoadInjectionPlan.pair)
  rw [List.eq_replicate_iff.mpr ⟨rfl, hsame⟩, List.nodup_replicate, List.length_map] at hnodup
  intro he
  have h₂ : 2 ≤ selected.length := (getInjectionPlanState_eq_error.mp he).1
  omega

theorem getInjectionPlanState_of_atMostOnePerPair_example :
    let reg : Registry := run sampleContext Registry.empty
      [.addLoadInjectionPlans [samplePlan "RSE1" "RSE2"] "root" "def"]
    AtMostOnePerPair reg.db ∧ getInjectionPlanState "id1" "id2" reg.db ≠ .error .multipleResultsFound := by
  intro reg
  have hi : AtMostOnePerPair reg.db := by decide
  exact ⟨hi, getInjectionPlanState_of_atMostOnePerPair hi "id1" "id2"⟩

-- ---------------------------------------------------------------------------
-- One step, then a run
-- ---------------------------------------------------------------------------

theorem addLoadInjectionPlans_fresh {ctx : Context} {plans : List Dict} {issuer vo : String}
    {reg reg' : Registry} (hg : Guarded ctx plans vo)
    (h : addLoadInjectionPlans ctx plans issuer vo reg = .ok reg') :
    ∃ rows, reg'.db.loadInjectionPlans.rows = reg.db.loadInjectionPlans.rows ++ rows ∧
      plans.mapM (resolvePair ctx · vo) = .ok (rows.map LoadInjectionPlan.pair) ∧
      (rows.map LoadInjectionPlan.pair).Nodup ∧
      (∀ row ∈ rows, row.pair ∉ reg.db.loadInjectionPlans.rows.map LoadInjectionPlan.pair) ∧
      ∀ row ∈ rows, row.state = loadInjectionStateWaiting := by
  obtain ⟨-, -, rows, hrows, hrel⟩ := addLoadInjectionPlans_eq_ok h
  obtain ⟨rows', hrows', hwait⟩ := addLoadInjectionPlans_waiting h
  obtain rfl : rows' = rows := List.append_cancel_left (hrows'.symm.trans hrows)
  have hvo : plans.mapM (resolvePair ctx · vo) = .ok (rows'.map LoadInjectionPlan.pair) :=
    mapM_eq_ok.mpr (List.forall₂_map_right_iff.mpr (hrel.imp fun _ _ h => h.1))
  obtain ⟨hdef, hnodup⟩ := hg _ hvo
  exact ⟨rows', hrows, hvo, hnodup, forall₂_forall_mem_right <|
    (List.forall₂_map_right_iff.mp (mapM_eq_ok.mp hdef)).mp
      (fun _ _ hd ⟨_, ⟨pair, hp, hnot⟩⟩ => Except.ok.inj (hp.symm.trans hd) ▸ hnot) hrel, hwait⟩

theorem addLoadInjectionPlans_keeps_invariant {ctx : Context} {plans : List Dict} {issuer vo : String}
    {reg reg' : Registry} (hg : Guarded ctx plans vo) (hi : AtMostOnePerPair reg.db)
    (h : addLoadInjectionPlans ctx plans issuer vo reg = .ok reg') : AtMostOnePerPair reg'.db := by
  obtain ⟨rows, hrows, -, hnodup, hnew, -⟩ := addLoadInjectionPlans_fresh hg h
  unfold AtMostOnePerPair
  rw [hrows, List.map_append]
  exact hi.append hnodup fun p hp hp' => by
    obtain ⟨row, hrow, rfl⟩ := List.mem_map.mp hp'
    exact hnew row hrow hp

theorem step_keeps_invariant {ctx : Context} {reg : Registry} {op : Op} (hg : op.Guarded ctx)
    (hi : AtMostOnePerPair reg.db) : AtMostOnePerPair (step ctx reg op).db := by
  unfold step transactional
  split
  · rename_i reg' h
    cases op with
    | addLoadInjectionPlans plans issuer vo => exact addLoadInjectionPlans_keeps_invariant hg hi h
    | updateInjectionPlanState src dest newState =>
      simp only [Op.apply, Except.ok.injEq] at h
      subst h
      simpa [AtMostOnePerPair] using hi
    | deleteInjectionPlan _ _ | deleteInjectionPlans _ =>
      simp only [Op.apply, map_eq_ok] at h
      obtain ⟨db, hd, rfl⟩ := h
      exact hi.sublist ((deleteInjectionPlans_sublist hd).1.map _)
  · exact hi

/-- Along a run of guarded calls every reachable table holds at most one plan
per pair. -/
theorem run_keeps_one_plan_per_pair (ctx : Context) (reg : Registry) (ops : List Op)
    (hi : AtMostOnePerPair reg.db) (hg : ∀ op ∈ ops, op.Guarded ctx) :
    AtMostOnePerPair (run ctx reg ops).db := by
  induction ops generalizing reg with
  | nil => exact hi
  | cons op ops ih =>
    rw [run_cons]
    exact ih _ (step_keeps_invariant (hg op (List.mem_cons_self _ _)) hi)
      fun op' h => hg op' (List.mem_cons_of_mem _ h)

theorem run_keeps_one_plan_per_pair_example :
    let plan : Dict := samplePlan "RSE1" "RSE2"
    let ops : List Op :=
      [.addLoadInjectionPlans [plan] "root" "def", .updateInjectionPlanState "id1" "id2" "RUNNING",
       .addLoadInjectionPlans [plan] "root" "def", .deleteInjectionPlan "id1" "id2"]
    AtMostOnePerPair Registry.empty.db ∧ (∀ op ∈ ops, op.Guarded sampleContext) ∧
      AtMostOnePerPair (run sampleContext Registry.empty ops).db := by
  intro plan ops
  have hg : Guarded sampleContext [plan] "def" := guarded_of_resolves rfl rfl (by decide)
  have hops : ∀ op ∈ ops, op.Guarded sampleContext := by
    simp only [ops, List.mem_cons, List.mem_singleton, List.not_mem_nil, or_false]
    rintro op (rfl | rfl | rfl | rfl) <;> first | exact hg | trivial
  exact ⟨List.nodup_nil, hops, run_keeps_one_plan_per_pair sampleContext Registry.empty ops List.nodup_nil hops⟩

-- ---------------------------------------------------------------------------
-- Where the code loses the invariant
-- ---------------------------------------------------------------------------

/-- One call with a batch that names the same pair twice stores two plans for
it, and the lookup of the pair then raises. -/
theorem batch_repeating_pair_breaks_uniqueness :
    let plan : Dict := samplePlan "RSE1" "RSE2"
    let reg := run sampleContext Registry.empty [.addLoadInjectionPlans [plan, plan] "root" "def"]
    ¬AtMostOnePerPair reg.db ∧
      getInjectionPlanState "id1" "id2" reg.db = .error .multipleResultsFound := by
  intro plan reg
  exact ⟨by decide, getInjectionPlanState_eq_error.mpr ⟨by decide, rfl⟩⟩

/-- A plan of a second VO `vo2` whose pair is stored already passes the
check, which looks its names up in the default VO, and is stored a second
time. -/
theorem resubmission_in_other_vo_not_rejected :
    let ctx : Context := { sampleContext with rses := sampleContext.rses ++
      [⟨"RSE1", "vo2", "v1"⟩, ⟨"RSE2", "vo2", "v2"⟩] }
    let plan : Dict := samplePlan "RSE1" "RSE2"
    let reg := run ctx Registry.empty [.addLoadInjectionPlans [plan] "root" "vo2"]
    let reg' := run ctx reg [.addLoadInjectionPlans [plan] "root" "vo2"]
    resolvePair ctx plan "vo2" = .ok (.str "v1", .str "v2") ∧
      reg.db.loadInjectionPlans.rows.map LoadInjectionPlan.pair = [(.str "v1", .str "v2")] ∧
      reg'.db.loadInjectionPlans.rows.map LoadInjectionPlan.pair =
        [(.str "v1", .str "v2"), (.str "v1", .str "v2")] := by
  intro ctx plan reg reg'
  exact ⟨rfl, by decide, by decide⟩

end LoadInjection
