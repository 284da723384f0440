import LoadInjection.Plans

/-!
# The gateway's bulk submission

`add_load_injection_plans` runs in three transactions, not one. Its own
session resolves the RSE names in the request's VO, writes the ids, the state
and a fresh plan id into each plan, and checks the issuer's permission
(`prepareLoadInjectionPlans`). `get_injection_plans()` is called without that
session and reads the committed plans. The duplicate check then runs on that
snapshot and `add_injection_plans(...)`, again without the session, inserts
in a transaction of its own (`commitLoadInjectionPlans`).

The check compares each new plan with the snapshot only, never with the
plans before it in the batch, and it resolves the names with
`get_rse_id(name)` in the default VO while the rows keep the ids of the
request's VO. `addLoadInjectionPlans` is the whole call when nothing runs in
between; `LoadInjection.Interleaving` runs the three steps of several calls
interleaved.
-/

namespace LoadInjection

structure Rse where
  rse : String
  vo : String
  id : String
  deriving DecidableEq, Repr

structure PermissionResult where
  allowed : Bool
  message : String

/-- What the gateway reads and does not own: the RSE table, the VO
`get_rse_id` resolves in when it is given none, the permission policy
(issuer, VO, action) and the identifier generator. -/
structure Context where
  rses : List Rse
  defaultVo : String
  hasPermission : String → String → String → PermissionResult
  generateUuid : Nat → String

structure Registry where
  db : Db
  uuids : Nat

def Registry.empty : Registry := ⟨⟨Table.empty, []⟩, 0⟩

/-- Modelled from the spec: `rucio.core.rse.get_rse_id`, the endpoint name
resolution, raising `RSENotFound` for a name without an RSE in the VO. -/
def getRseId (ctx : Context) (rse : Value) (vo : String) : Except Error Value :=
  match rse with
  | .str name =>
    match ctx.rses.find? fun r => r.rse == name && r.vo == vo with
    | some r => .ok (.str r.id)
    | none => .error (.rseNotFound rse vo)
  | _ => .error (.rseNotFound rse vo)

/-- Modelled from the spec: `LoadInjectionState.WAITING`, the state a plan is
created in. -/
def loadInjectionStateWaiting : Value := .str "WAITING"

def resolvePair (ctx : Context) (plan : Dict) (vo : String) : Except Error (Value × Value) := do
  let srcRseId ← getRseId ctx (← plan.getItem "src_rse") vo
  let destRseId ← getRseId ctx (← plan.getItem "dest_rse") vo
  pure (srcRseId, destRseId)

def resolvePlans (ctx : Context) (vo : String) : List Dict → Nat → Except Error (List Dict × Nat)
  | [], uuids => .ok ([], uuids)
  | plan :: rest, uuids => do
    let (srcRseId, destRseId) ← resolvePair ctx plan vo
    let plan := (((plan.setItem "src_rse_id" srcRseId).setItem "dest_rse_id" destRseId).setItem
      "state" loadInjectionStateWaiting).setItem "plan_id" (.str (ctx.generateUuid uuids))
    let (rest, uuids) ← resolvePlans ctx vo rest (uuids + 1)
    pure (plan :: rest, uuids)

def checkPermission (ctx : Context) (issuer vo : String) : Except Error Unit :=
  let authResult := ctx.hasPermission issuer vo "add_load_injection_plans"
  if !authResult.allowed then
    .error (.accessDenied
      ("Account " ++ issuer ++ " can not bulk add load injection plans. " ++ authResult.message))
  else .ok ()

def checkDuplicates (ctx : Context) (presentPlans : List Dict) : List Dict → Except Error Unit
  | [] => .ok ()
  | newPlan :: rest => do
    let (newSrcId, newDestId) ← resolvePair ctx newPlan ctx.defaultVo
    let exist := presentPlans.any fun plan =>
      plan.get "src_rse_id" == newSrcId && plan.get "dest_rse_id" == newDestId
    if exist then
      throw (.duplicateLoadInjectionPlan ("Load injection plan from " ++
        (newPlan.get "src_rse").pyStr ++ " to " ++ (newPlan.get "dest_rse").pyStr ++ " already exists."))
    else checkDuplicates ctx presentPlans rest

def prepareLoadInjectionPlans (ctx : Context) (injectionPlans : List Dict) (issuer vo : String)
    (uuids : Nat) : Except Error (List Dict × Nat) := do
  let (plans, uuids) ← resolvePlans ctx vo injectionPlans uuids
  checkPermission ctx issuer vo
  pure (plans, uuids)

def commitLoadInjectionPlans (ctx : Context) (presentPlans plans : List Dict) (db : Db) :
    Except Error Db := do
  checkDuplicates ctx presentPlans plans
  addInjectionPlans plans db

def addLoadInjectionPlans (ctx : Context) (injectionPlans : List Dict) (issuer vo : String)
    (reg : Registry) : Except Error Registry := do
  let (plans, uuids) ← prepareLoadInjectionPlans ctx injectionPlans issuer vo reg.uuids
  let db ← commitLoadInjectionPlans ctx (getInjectionPlans reg.db none) plans reg.db
  pure ⟨db, uuids⟩

-- ---------------------------------------------------------------------------
-- One lemma per step
-- ---------------------------------------------------------------------------

theorem getRseId_eq_error {ctx : Context} {rse : Value} {vo : String} {e : Error}
    (h : getRseId ctx rse vo = .error e) : e = .rseNotFound rse vo := by
  unfold getRseId at h
  split at h
  · split at h
    · cases h
    · exact (Except.error.inj h).symm
  · exact (Except.error.inj h).symm

theorem resolvePair_eq_error {ctx : Context} {plan : Dict} {vo : String} {e : Error}
    (h : resolvePair ctx plan vo = .error e) :
    e = .keyError "src_rse" ∨ e = .keyError "dest_rse" ∨ ∃ rse, e = .rseNotFound rse vo := by
  simp only [resolvePair, bind_eq_error, bind_eq_ok] at h
  rcases h with h | ⟨_, -, h | ⟨_, -, h | ⟨_, -, h | ⟨_, -, h⟩⟩⟩⟩
  · exact .inl (Dict.getItem_eq_error.mp h).2.symm
  · exact .inr (.inr ⟨_, getRseId_eq_error h⟩)
  · exact .inr (.inl (Dict.getItem_eq_error.mp h).2.symm)
  · exact .inr (.inr ⟨_, getRseId_eq_error h⟩)
  · simp [pure, Except.pure] at h

theorem resolvePair_setItem (ctx : Context) (plan : Dict) {key : String} (v : Value) (vo : String)
    (hs : "src_rse" ≠ key) (hd : "dest_rse" ≠ key) :
    resolvePair ctx (plan.setItem key v) vo = resolvePair ctx plan vo := by
  simp only [resolvePair, Dict.getItem_setItem_ne _ _ hs, Dict.getItem_setItem_ne _ _ hd]

/-- The dicts the first loop makes of a batch: each keeps the names of its
plan and carries the ids they resolve to in `vo`. -/
def Resolved (ctx : Context) (vo : String) (plans plans' : List Dict) : Prop :=
  List.Forall₂ (fun plan plan' => ∃ pair, resolvePair ctx plan vo = .ok pair ∧
    plan'.lookup "src_rse_id" = some pair.1 ∧ plan'.lookup "dest_rse_id" = some pair.2 ∧
    ∀ vo', resolvePair ctx plan' vo' = resolvePair ctx plan vo') plans plans'

theorem resolvePlans_resolved {ctx : Context} {vo : String} {plans plans' : List Dict} {n n' : Nat}
    (h : resolvePlans ctx vo plans n = .ok (plans', n')) : Resolved ctx vo plans plans' := by
  induction plans generalizing n plans' with
  | nil =>
    simp only [resolvePlans, Except.ok.injEq, Prod.mk.injEq] at h
    exact h.1 ▸ List.Forall₂.nil
  | cons plan rest ih =>
    simp only [resolvePlans, bind_eq_ok] at h
    obtain ⟨⟨src, dest⟩, hp, ⟨rest', m⟩, hr, h⟩ := h
    simp only [pure_eq_ok, Prod.mk.injEq] at h
    obtain ⟨rfl, rfl⟩ := h
    refine List.Forall₂.cons ⟨(src, dest), hp, ?_, ?_, fun vo' => ?_⟩ (ih hr)
    · simp [Dict.lookup_setItem]
    · simp [Dict.lookup_setItem]
    · simp (disch := decide) only [resolvePair_setItem]

theorem resolvePlans_state {ctx : Context} {vo : String} {plans plans' : List Dict} {n n' : Nat}
    (h : resolvePlans ctx vo plans n = .ok (plans', n')) :
    ∀ plan' ∈ plans', plan'.lookup "state" = some loadInjectionStateWaiting := by
  induction plans generalizing n plans' with
  | nil =>
    simp only [resolvePlans, Except.ok.injEq, Prod.mk.injEq] at h
    simp [← h.1]
  | cons plan rest ih =>
    simp only [resolvePlans, bind_eq_ok] at h
    obtain ⟨⟨src, dest⟩, -, ⟨rest', m⟩, hr, h⟩ := h
    simp only [pure_eq_ok, Prod.mk.injEq] at h
    obtain ⟨rfl, rfl⟩ := h
    intro plan' hp
    rcases List.mem_cons.mp hp with rfl | hp
    · simp [Dict.lookup_setItem]
    · exact ih hr plan' hp

theorem resolvePlans_ok_of_resolves {ctx : Context} {vo : String} {plans : List Dict}
    (h : ∀ plan ∈ plans, ∃ pair, resolvePair ctx plan vo = .ok pair) (n : Nat) :
    ∃ r, resolvePlans ctx vo plans n = .ok r := by
  induction plans generalizing n with
  | nil => exact ⟨_, rfl⟩
  | cons plan rest ih =>
    obtain ⟨⟨src, dest⟩, hp⟩ := h plan (List.mem_cons_self _ _)
    obtain ⟨⟨rest', m⟩, hr⟩ := ih (fun p hp => h p (List.mem_cons_of_mem _ hp)) (n + 1)
    rw [resolvePlans, hp]
    simp [hr, bind, Except.bind, pure, Except.pure]

theorem resolvePlans_eq_error_of_unresolved {ctx : Context} {vo : String} {plans : List Dict}
    (h : ∃ plan ∈ plans, ∀ pair, resolvePair ctx plan vo ≠ .ok pair) (n : Nat) :
    ∃ e, resolvePlans ctx vo plans n = .error e ∧ ∃ plan ∈ plans, resolvePair ctx plan vo = .error e := by
  induction plans generalizing n with
  | nil => obtain ⟨_, hmem, _⟩ := h; cases hmem
  | cons plan rest ih =>
    cases hp : resolvePair ctx plan vo with
    | error e => exact ⟨e, by simp only [resolvePlans, hp, bind, Except.bind], plan, List.mem_cons_self _ _, hp⟩
    | ok pair =>
      have hrest : ∃ p ∈ rest, ∀ pair, resolvePair ctx p vo ≠ .ok pair := by
        obtain ⟨p, hmem, hno⟩ := h
        rcases List.mem_cons.mp hmem with rfl | hmem
        · exact absurd hp (hno _)
        · exact ⟨p, hmem, hno⟩
      obtain ⟨e, he, p, hmem, hpe⟩ := ih hrest (n + 1)
      obtain ⟨src, dest⟩ := pair
      exact ⟨e, by simp only [resolvePlans, hp, he, bind, Except.bind], p, List.mem_cons_of_mem _ hmem, hpe⟩

def Lists (presentPlans : List Dict) (pair : Value × Value) : Prop :=
  ∃ q ∈ presentPlans, q.get "src_rse_id" = pair.1 ∧ q.get "dest_rse_id" = pair.2

theorem any_eq_true_iff_lists (presentPlans : List Dict) (src dest : Value) :
    (presentPlans.any fun plan => plan.get "src_rse_id" == src && plan.get "dest_rse_id" == dest) =
      true ↔ Lists presentPlans (src, dest) := by
  simp only [Lists, List.any_eq_true, Bool.and_eq_true, beq_iff_eq]

theorem lists_getInjectionPlans (db : Db) (pair : Value × Value) :
    Lists (getInjectionPlans db none) pair ↔
      pair ∈ db.loadInjectionPlans.rows.map LoadInjectionPlan.pair := by
  simp only [Lists, getInjectionPlans, List.mem_map, exists_exists_and_eq_and,
    LoadInjectionPlan.toDict_get_src, LoadInjectionPlan.toDict_get_dest, LoadInjectionPlan.pair, Prod.ext_iff]

theorem checkDuplicates_eq_ok {ctx : Context} {presentPlans plans : List Dict}
    (h : checkDuplicates ctx presentPlans plans = .ok ()) :
    ∀ plan ∈ plans, ∃ pair, resolvePair ctx plan ctx.defaultVo = .ok pair ∧ ¬Lists presentPlans pair := by
  induction plans with
  | nil => exact fun _ h => absurd h (List.not_mem_nil _)
  | cons plan rest ih =>
    simp only [checkDuplicates, bind_eq_ok] at h
    obtain ⟨⟨src, dest⟩, hp, h⟩ := h
    split at h
    · simp [throw, throwThe, MonadExceptOf.throw] at h
    · rename_i hx
      intro q hq
      rcases List.mem_cons.mp hq with rfl | hq
      · exact ⟨_, hp, fun hl => hx ((any_eq_true_iff_lists _ _ _).mpr hl)⟩
      · exact ih h q hq

theorem checkPermission_eq_ok {ctx : Context} {issuer vo : String} {u : Unit}
    (h : checkPermission ctx issuer vo = .ok u) :
    (ctx.hasPermission issuer vo "add_load_injection_plans").allowed = true := by
  by_contra hn
  simp [checkPermission, hn] at h

/-- The row stored for a plan of a batch that passed the check: it has the
pair the plan resolves to in `vo`, and the pair the check resolved in the
default VO is not `taken`. -/
def CheckedRow (ctx : Context) (vo : String) (taken : Value × Value → Prop) (plan : Dict)
    (row : LoadInjectionPlan) : Prop :=
  resolvePair ctx plan vo = .ok row.pair ∧ ∃ pair, resolvePair ctx plan ctx.defaultVo = .ok pair ∧ ¬taken pair

theorem checkedRows_forall₂ {ctx : Context} {vo : String}
    {injectionPlans plans presentPlans : List Dict} {rows : List LoadInjectionPlan}
    (hr : Resolved ctx vo injectionPlans plans) (hc : checkDuplicates ctx presentPlans plans = .ok ())
    (hm : plans.mapM LoadInjectionPlan.ofDict = .ok rows) :
    List.Forall₂ (CheckedRow ctx vo (Lists presentPlans)) injectionPlans rows := by
  refine forall₂_compose ?_ hr (mapM_eq_ok.mp hm)
  rintro plan plan' row hmem ⟨pair, hp, hs, hd, hvo⟩ hrow
  obtain ⟨hs', hd'⟩ := LoadInjectionPlan.ofDict_pair hrow
  obtain ⟨pairD, hpD, hnot⟩ := checkDuplicates_eq_ok hc plan' hmem
  have hpair : row.pair = pair := Prod.ext (Option.some.inj (hs'.symm.trans hs))
    (Option.some.inj (hd'.symm.trans hd))
  exact ⟨hpair ▸ hp, pairD, hvo _ ▸ hpD, hnot⟩

theorem commitLoadInjectionPlans_eq_ok {ctx : Context} {vo : String}
    {injectionPlans plans presentPlans : List Dict} {db db' : Db}
    (hr : Resolved ctx vo injectionPlans plans)
    (h : commitLoadInjectionPlans ctx presentPlans plans db = .ok db') :
    db'.loadInjectionPlansHistory = db.loadInjectionPlansHistory ∧
      ∃ rows, db'.loadInjectionPlans.rows = db.loadInjectionPlans.rows ++ rows ∧
        List.Forall₂ (CheckedRow ctx vo (Lists presentPlans)) injectionPlans rows := by
  simp only [commitLoadInjectionPlans, bind_eq_ok] at h
  obtain ⟨⟨⟩, hc, ha⟩ := h
  obtain ⟨rows, hm, hrows, hh⟩ := addInjectionPlans_rows ha
  exact ⟨hh, rows, hrows, checkedRows_forall₂ hr hc hm⟩

theorem addLoadInjectionPlans_eq_ok {ctx : Context} {injectionPlans : List Dict}
    {issuer vo : String} {reg reg' : Registry}
    (h : addLoadInjectionPlans ctx injectionPlans issuer vo reg = .ok reg') :
    (ctx.hasPermission issuer vo "add_load_injection_plans").allowed = true ∧
      reg'.db.loadInjectionPlansHistory = reg.db.loadInjectionPlansHistory ∧
      ∃ rows, reg'.db.loadInjectionPlans.rows = reg.db.loadInjectionPlans.rows ++ rows ∧
        List.Forall₂ (CheckedRow ctx vo (· ∈ reg.db.loadInjectionPlans.rows.map LoadInjectionPlan.pair))
          injectionPlans rows := by
  simp only [addLoadInjectionPlans, prepareLoadInjectionPlans, bind_eq_ok, pure_eq_ok] at h
  obtain ⟨⟨plans, m⟩, ⟨⟨plans', m'⟩, hr, u, hperm, hpm⟩, db, hc, rfl⟩ := h
  simp only [Prod.mk.injEq] at hpm
  obtain ⟨rfl, rfl⟩ := hpm
  obtain ⟨hh, rows, hrows, hrel⟩ := commitLoadInjectionPlans_eq_ok (resolvePlans_resolved hr) hc
  exact ⟨checkPermission_eq_ok hperm, hh, rows, hrows, hrel.imp fun _ _ ⟨hp, pair, hpD, hnot⟩ =>
    ⟨hp, pair, hpD, fun hin => hnot ((lists_getInjectionPlans _ _).mpr hin)⟩⟩

theorem addLoadInjectionPlans_waiting {ctx : Context} {injectionPlans : List Dict}
    {issuer vo : String} {reg reg' : Registry}
    (h : addLoadInjectionPlans ctx injectionPlans issuer vo reg = .ok reg') :
    ∃ rows, reg'.db.loadInjectionPlans.rows = reg.db.loadInjectionPlans.rows ++ rows ∧
      ∀ row ∈ rows, row.state = loadInjectionStateWaiting := by
  simp only [addLoadInjectionPlans, prepareLoadInjectionPlans, commitLoadInjectionPlans, bind_eq_ok,
    pure_eq_ok] at h
  obtain ⟨⟨plans, m⟩, ⟨⟨plans', m'⟩, hr, -, -, hpm⟩, db, ⟨-, -, ha⟩, rfl⟩ := h
  simp only [Prod.mk.injEq] at hpm
  obtain ⟨rfl, rfl⟩ := hpm
  obtain ⟨rows, hm, hrows, -⟩ := addInjectionPlans_rows ha
  refine ⟨rows, hrows, fun row hrow => ?_⟩
  obtain ⟨plan, hplan, hof⟩ := forall₂_exists_right (mapM_eq_ok.mp hm) row hrow
  obtain ⟨-, -, -, hs, -⟩ := PlanColumns.ofDict_eq_ok.mp (LoadInjectionPlan.ofDict_eq_ok.mp hof).2
  exact Option.some.inj (hs.symm.trans (resolvePlans_state hr plan hplan))

theorem addLoadInjectionPlans_singleton_eq_ok {ctx : Context} {plan : Dict} {issuer vo : String}
    {reg : Registry} {src dest : Value} {row : LoadInjectionPlan}
    (hvo : resolvePair ctx plan vo = .ok (src, dest))
    (hdef : resolvePair ctx plan ctx.defaultVo = .ok (src, dest))
    (hperm : (ctx.hasPermission issuer vo "add_load_injection_plans").allowed = true)
    (hnew : (src, dest) ∉ reg.db.loadInjectionPlans.rows.map LoadInjectionPlan.pair)
    (hrow : LoadInjectionPlan.ofDict ((((plan.setItem "src_rse_id" src).setItem "dest_rse_id" dest).setItem
      "state" loadInjectionStateWaiting).setItem "plan_id" (.str (ctx.generateUuid reg.uuids))) = .ok row) :
    ∃ t : PlanTable, addLoadInjectionPlans ctx [plan] issuer vo reg =
        .ok ⟨{ reg.db with loadInjectionPlans := t }, reg.uuids + 1⟩ ∧
      t.rows = reg.db.loadInjectionPlans.rows ++ [row] := by
  let plan' := (((plan.setItem "src_rse_id" src).setItem "dest_rse_id" dest).setItem "state"
    loadInjectionStateWaiting).setItem "plan_id" (.str (ctx.generateUuid reg.uuids))
  have hprep : prepareLoadInjectionPlans ctx [plan] issuer vo reg.uuids = .ok ([plan'], reg.uuids + 1) := by
    simp [prepareLoadInjectionPlans, resolvePlans, hvo, checkPermission, hperm, bind, Except.bind,
      pure, Except.pure, plan']
  have hcheck : checkDuplicates ctx (getInjectionPlans reg.db none) [plan'] = .ok () := by
    simp only [LoadInjectionPlan.pair, List.mem_map, Prod.mk.injEq, not_exists, not_and] at hnew
    simp (disch := decide) only [checkDuplicates, plan', resolvePair_setItem]
    simp [hdef, getInjectionPlans, bind, Except.bind, pure, Except.pure]
    exact fun r hr hs => hnew r hr hs
  have hpair : row.pair = (src, dest) := by
    obtain ⟨hs, hd⟩ := LoadInjectionPlan.ofDict_pair hrow
    simp [Dict.lookup_setItem] at hs hd
    simp [LoadInjectionPlan.pair, hs, hd]
  have hkey : row.key ∉ reg.db.loadInjectionPlans.rows.map LoadInjectionPlan.key := fun hk => by
    obtain ⟨r, hr, hkey⟩ := List.mem_map.mp hk
    exact hnew (hpair ▸ List.mem_map.mpr ⟨r, hr, congrArg (fun k => (k.1, k.2.1)) hkey⟩)
  obtain ⟨t, ht, hrows⟩ := Table.flush_singleton hkey
  have hins : addInjectionPlans [plan'] reg.db = .ok { reg.db with loadInjectionPlans := t } :=
    addInjectionPlans_eq_ok.mpr ⟨[row], mapM_eq_ok.mpr (.cons hrow .nil), ht, rfl⟩
  refine ⟨t, ?_, hrows⟩
  simp [addLoadInjectionPlans, hprep, commitLoadInjectionPlans, hcheck, hins, bind, Except.bind,
    pure, Except.pure]

-- ---------------------------------------------------------------------------
-- Sample inputs
-- ---------------------------------------------------------------------------

/-- `RSE1` and `RSE2` in the default VO `def`, with ids `id1` and `id2`, a
policy that permits every action, and plan ids drawn from the counter. -/
def sampleContext : Context :=
  ⟨[⟨"RSE1", "def", "id1"⟩, ⟨"RSE2", "def", "id2"⟩], "def", fun _ _ _ => ⟨true, ""⟩, toString⟩

def samplePlan (src dest : String) : Dict :=
  [("src_rse", .str src), ("dest_rse", .str dest), ("inject_rate", .int 100),
   ("start_time", .str "2024-05-01 00:00:00"), ("end_time", .str "2024-05-01 01:00:00"),
   ("comments", .none), ("interval", .int 900), ("fudge", .float 0), ("max_injection", .float 0),
   ("expiration_delay", .int 1800), ("rule_lifetime", .int 3600), ("big_first", .bool false),
   ("dry_run", .bool false)]

end LoadInjection
