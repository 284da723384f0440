import LoadInjection.Gateway

/-!
# The REST endpoint and the client

`BulkPlans.post` passes the decoded JSON list to `add_load_injection_plans`
and answers 201 `Created` on success, 401 on `AccessDenied`, 409 on
`DuplicateLoadInjectionPlan` and 406 on any other exception. The JSON text
itself is not modelled: the body is the list of dicts the client renders and
`json_list()` decodes.

`LoadInjectionClient.add_load_injection_plan` sends a one-plan list. Its dict
names the destination `dst_rse`, while the gateway reads `dest_rse`, so every
such request raises `KeyError` in the gateway's first loop, before anything
is stored, and is answered 406 (`client_plan_always_rejected`). The endpoint
itself keeps the contract for the dict its schema describes: it stores one
plan carrying the arguments (`post_stores_schema_plan`).
-/

namespace LoadInjection

inductive Response where
  | created
  | httpError (status : Nat) (error : Error)

def BulkPlans.errorStatus : Error → Nat
  | .accessDenied _ => 401
  | .duplicateLoadInjectionPlan _ => 409
  | _ => 406

def BulkPlans.post (ctx : Context) (issuer vo : String) (plans : List Dict) (reg : Registry) :
    Response × Registry :=
  match transactional (addLoadInjectionPlans ctx plans issuer vo) reg with
  | (.ok (), reg') => (.created, reg')
  | (.error e, reg') => (.httpError (BulkPlans.errorStatus e) e, reg')

structure LoadInjectionPlanArgs where
  srcRse : String
  dstRse : String
  injectRate : Int
  startTime : String
  endTime : String
  comments : Option String := none
  interval : Option Int := none
  fudge : Option ℚ := none
  maxInjection : Option ℚ := none
  expirationDelay : Option Int := none
  ruleLifetime : Option Int := none
  bigFirst : Option Bool := none
  dryRun : Option Bool := none

def LoadInjectionPlanArgs.planDict (args : LoadInjectionPlanArgs) (destKey : String) : Dict :=
  [("src_rse", .str args.srcRse), (destKey, .str args.dstRse), ("inject_rate", .int args.injectRate),
   ("start_time", .str args.startTime), ("end_time", .str args.endTime),
   ("comments", .ofOption Value.str args.comments), ("interval", .ofOption Value.int args.interval),
   ("fudge", .ofOption Value.float args.fudge),
   ("max_injection", .ofOption Value.float args.maxInjection),
   ("expiration_delay", .ofOption Value.int args.expirationDelay),
   ("big_first", .ofOption Value.bool args.bigFirst),
   ("rule_lifetime", .ofOption Value.int args.ruleLifetime),
   ("dry_run", .ofOption Value.bool args.dryRun)]

def LoadInjectionPlanArgs.newPlan (args : LoadInjectionPlanArgs) : Dict := args.planDict "dst_rse"

def LoadInjectionPlanArgs.schemaPlan (args : LoadInjectionPlanArgs) : Dict := args.planDict "dest_rse"

/-- The row the spec describes for the arguments: their values, the two RSE
names replaced by ids, the state `WAITING` and the plan id. -/
def LoadInjectionPlanArgs.toPlan (args : LoadInjectionPlanArgs) (srcRseId destRseId planId : Value) :
    LoadInjectionPlan :=
  { planId, srcRseId, destRseId
    injectRate := .int args.injectRate
    state := loadInjectionStateWaiting
    interval := .ofOption Value.int args.interval
    startTime := .str args.startTime
    endTime := .str args.endTime
    fudge := .ofOption Value.float args.fudge
    maxInjection := .ofOption Value.float args.maxInjection
    expirationDelay := .ofOption Value.int args.expirationDelay
    bigFirst := .ofOption Value.bool args.bigFirst
    ruleLifetime := .ofOption Value.int args.ruleLifetime
    comments := .ofOption Value.str args.comments
    dryRun := .ofOption Value.bool args.dryRun }

def LoadInjectionClient.addLoadInjectionPlans (ctx : Context) (issuer vo : String) (plans : List Dict)
    (reg : Registry) : Except Response Bool × Registry :=
  match BulkPlans.post ctx issuer vo plans reg with
  | (.created, reg') => (.ok true, reg')
  | (response, reg') => (.error response, reg')

def LoadInjectionClient.addLoadInjectionPlan (ctx : Context) (issuer vo : String)
    (args : LoadInjectionPlanArgs) (reg : Registry) : Except Response Bool × Registry :=
  match BulkPlans.post ctx issuer vo [args.newPlan] reg with
  | (.created, reg') => (.ok true, reg')
  | (response, reg') => (.error response, reg')

-- ---------------------------------------------------------------------------
-- The client against the endpoint
-- ---------------------------------------------------------------------------

theorem LoadInjectionClient.addLoadInjectionPlan_eq (ctx : Context) (issuer vo : String)
    (args : LoadInjectionPlanArgs) (reg : Registry) :
    LoadInjectionClient.addLoadInjectionPlan ctx issuer vo args reg =
      LoadInjectionClient.addLoadInjectionPlans ctx issuer vo [args.newPlan] reg := rfl

theorem resolvePair_newPlan (ctx : Context) (args : LoadInjectionPlanArgs) (vo : String) :
    ∃ e, resolvePair ctx args.newPlan vo = .error e ∧ BulkPlans.errorStatus e = 406 := by
  have hs : args.newPlan.getItem "src_rse" = .ok (.str args.srcRse) := rfl
  have hd : args.newPlan.getItem "dest_rse" = .error (.keyError "dest_rse") := rfl
  cases h : getRseId ctx (.str args.srcRse) vo with
  | error e =>
    refine ⟨e, by simp [resolvePair, hs, h, bind, Except.bind], ?_⟩
    rw [getRseId_eq_error h]
    rfl
  | ok id => exact ⟨.keyError "dest_rse", by simp [resolvePair, hs, hd, h, bind, Except.bind], rfl⟩

/-- Every plan the client sends is refused with 406 and stores nothing. -/
theorem client_plan_always_rejected (ctx : Context) (issuer vo : String)
    (args : LoadInjectionPlanArgs) (reg : Registry) :
    ∃ e, BulkPlans.post ctx issuer vo [args.newPlan] reg = (.httpError 406 e, reg) ∧
      LoadInjectionClient.addLoadInjectionPlan ctx issuer vo args reg = (.error (.httpError 406 e), reg) := by
  obtain ⟨e, he, hs⟩ := resolvePair_newPlan ctx args vo
  have hadd : addLoadInjectionPlans ctx [args.newPlan] issuer vo reg = .error e := by
    simp [addLoadInjectionPlans, prepareLoadInjectionPlans, resolvePlans, he, bind, Except.bind]
  have hpost : BulkPlans.post ctx issuer vo [args.newPlan] reg = (.httpError 406 e, reg) := by
    simp [BulkPlans.post, transactional_of_error hadd, hs]
  exact ⟨e, hpost, by simp only [LoadInjectionClient.addLoadInjectionPlan, hpost]⟩

-- ---------------------------------------------------------------------------
-- The endpoint against its schema
-- ---------------------------------------------------------------------------

/-- A permitted plan in the schema's format, whose names resolve alike in the
request's VO and the default VO to a pair with no plan yet, is answered 201
and stored as one row carrying the arguments. -/
theorem post_stores_schema_plan (ctx : Context) (issuer vo : String) (args : LoadInjectionPlanArgs)
    (reg : Registry) {srcRseId destRseId : Value}
    (hsrc : ∀ v ∈ [vo, ctx.defaultVo], getRseId ctx (.str args.srcRse) v = .ok srcRseId)
    (hdest : ∀ v ∈ [vo, ctx.defaultVo], getRseId ctx (.str args.dstRse) v = .ok destRseId)
    (hperm : (ctx.hasPermission issuer vo "add_load_injection_plans").allowed = true)
    (hnew : (srcRseId, destRseId) ∉ reg.db.loadInjectionPlans.rows.map LoadInjectionPlan.pair) :
    ∃ reg', BulkPlans.post ctx issuer vo [args.schemaPlan] reg = (.created, reg') ∧
      reg'.db.loadInjectionPlans.rows = reg.db.loadInjectionPlans.rows ++
        [args.toPlan srcRseId destRseId (.str (ctx.generateUuid reg.uuids))] ∧
      reg'.db.loadInjectionPlansHistory = reg.db.loadInjectionPlansHistory := by
  have hpair : ∀ v ∈ [vo, ctx.defaultVo],
      resolvePair ctx args.schemaPlan v = .ok (srcRseId, destRseId) := by
    intro v hv
    have h₁ : args.schemaPlan.getItem "src_rse" = .ok (.str args.srcRse) := rfl
    have h₂ : args.schemaPlan.getItem "dest_rse" = .ok (.str args.dstRse) := rfl
    simp [resolvePair, h₁, h₂, hsrc v hv, hdest v hv, bind, Except.bind, pure, Except.pure]
  obtain ⟨t, hadd, hrows⟩ := addLoadInjectionPlans_singleton_eq_ok (hpair vo (by simp))
    (hpair _ (by simp)) hperm hnew rfl
  exact ⟨⟨{ reg.db with loadInjectionPlans := t }, reg.uuids + 1⟩,
    by rw [BulkPlans.post, transactional_of_ok hadd], hrows, rfl⟩

theorem post_stores_schema_plan_example :
    let ctx : Context := { sampleContext with generateUuid := fun _ => "p1" }
    let args : LoadInjectionPlanArgs :=
      { srcRse := "RSE1", dstRse := "RSE2", injectRate := 100, startTime := "2024-05-01 00:00:00",
        endTime := "2024-05-01 01:00:00" }
    let reg : Registry := Registry.empty
    ∃ reg', BulkPlans.post ctx "root" "def" [args.schemaPlan] reg = (.created, reg') ∧
      reg'.db.loadInjectionPlans.rows = [args.toPlan (.str "id1") (.str "id2") (.str "p1")] := by
  intro ctx args reg
  have hdef : ∀ v ∈ ["def", ctx.defaultVo], v = "def" := by
    simp only [List.mem_cons, List.mem_singleton, List.not_mem_nil, or_false]
    rintro v (rfl | rfl) <;> rfl
  obtain ⟨reg', hpost, hrows, -⟩ := @post_stores_schema_plan ctx "root" "def" args reg
    (.str "id1") (.str "id2") (fun v hv => by rw [hdef v hv]; rfl) (fun v hv => by rw [hdef v hv]; rfl)
    rfl (List.not_mem_nil _)
  exact ⟨reg', hpost, hrows⟩

-- ---------------------------------------------------------------------------
-- An issuer without the permission
-- ---------------------------------------------------------------------------

/-- The names are resolved before the permission is checked: to an issuer
without it, the endpoint answers 401 when every RSE name of the batch exists in
the VO and 406 when one does not, and stores nothing either way. -/
theorem post_of_denied_issuer (ctx : Context) (issuer vo : String) (plans : List Dict)
    (reg : Registry) (hden : (ctx.hasPermission issuer vo "add_load_injection_plans").allowed = false) :
    ((∀ plan ∈ plans, ∃ pair, resolvePair ctx plan vo = .ok pair) →
      BulkPlans.post ctx issuer vo plans reg = (.httpError 401 (.accessDenied ("Account " ++ issuer ++
        " can not bulk add load injection plans. " ++
        (ctx.hasPermission issuer vo "add_load_injection_plans").message)), reg)) ∧
    ((∃ plan ∈ plans, ∀ pair, resolvePair ctx plan vo ≠ .ok pair) →
      ∃ e, BulkPlans.post ctx issuer vo plans reg = (.httpError 406 e, reg) ∧
        (e = .keyError "src_rse" ∨ e = .keyError "dest_rse" ∨ ∃ rse, e = .rseNotFound rse vo)) := by
  refine ⟨fun hall => ?_, fun hsome => ?_⟩
  · obtain ⟨⟨plans', m⟩, hr⟩ := resolvePlans_ok_of_resolves hall reg.uuids
    have hadd : addLoadInjectionPlans ctx plans issuer vo reg = .error (.accessDenied ("Account " ++
        issuer ++ " can not bulk add load injection plans. " ++
        (ctx.hasPermission issuer vo "add_load_injection_plans").message)) := by
      simp [addLoadInjectionPlans, prepareLoadInjectionPlans, hr, checkPermission, hden, bind,
        Except.bind]
    simp only [BulkPlans.post, transactional_of_error hadd, BulkPlans.errorStatus]
  · obtain ⟨e, he, plan, -, hpe⟩ := resolvePlans_eq_error_of_unresolved hsome reg.uuids
    have hadd : addLoadInjectionPlans ctx plans issuer vo reg = .error e := by
      simp [addLoadInjectionPlans, prepareLoadInjectionPlans, he, bind, Except.bind]
    have hkind := resolvePair_eq_error hpe
    have hs : BulkPlans.errorStatus e = 406 := by rcases hkind with rfl | rfl | ⟨rse, rfl⟩ <;> rfl
    exact ⟨e, by simp only [BulkPlans.post, transactional_of_error hadd, hs], hkind⟩

theorem post_of_denied_issuer_example :
    let ctx : Context := { sampleContext with hasPermission := fun _ _ _ => ⟨false, "denied"⟩ }
    let reg : Registry := Registry.empty
    let known : Dict := [("src_rse", .str "RSE1"), ("dest_rse", .str "RSE2")]
    let unknown : Dict := [("src_rse", .str "RSE9"), ("dest_rse", .str "RSE2")]
    BulkPlans.post ctx "root" "def" [known] reg = (.httpError 401 (.accessDenied
      ("Account " ++ "root" ++ " can not bulk add load injection plans. " ++ "denied")), reg) ∧
    ∃ e, BulkPlans.post ctx "root" "def" [unknown] reg = (.httpError 406 e, reg) := by
  intro ctx reg known unknown
  have hu : resolvePair ctx unknown "def" = .error (.rseNotFound (.str "RSE9") "def") := rfl
  refine ⟨(post_of_denied_issuer ctx "root" "def" [known] reg rfl).1 ?_, ?_⟩
  · simp only [List.mem_singleton, forall_eq]
    exact ⟨_, rfl⟩
  · obtain ⟨e, hpost, -⟩ := (post_of_denied_issuer ctx "root" "def" [unknown] reg rfl).2
      ⟨unknown, List.mem_singleton_self _, fun pair h => by rw [hu] at h; cases h⟩
    exact ⟨e, hpost⟩

end LoadInjection
