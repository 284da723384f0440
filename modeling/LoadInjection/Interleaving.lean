import LoadInjection.Runs

/-!
# Interleaved submissions

Several calls of `add_load_injection_plans` run at once, each a request that
moves through its three transactions: the gateway's session
(`prepareLoadInjectionPlans`), the read of `get_injection_plans()`, and the
check on that snapshot followed by the insert of `add_injection_plans`
(`commitLoadInjectionPlans`). Each transaction is atomic; a schedule says
which request takes its next one.

Two requests for one pair can both read the table before either inserts,
both pass the check and both store their plan
(`concurrent_submissions_both_succeed`). What no schedule breaks is that a
committed plan stays committed (`run_never_loses_plans`).
-/

namespace LoadInjection

inductive Phase where
  | start
  | prepared (plans : List Dict)
  | snapshot (plans presentPlans : List Dict)
  | done (result : Except Error Unit)

def Phase.succeeded : Phase → Bool
  | .done (.ok ()) => true
  | _ => false

structure Request where
  injectionPlans : List Dict
  issuer : String
  vo : String
  phase : Phase

structure World where
  reg : Registry
  requests : List Request

def Request.step (ctx : Context) (req : Request) (reg : Registry) : Request × Registry :=
  match req.phase with
  | .start =>
    match prepareLoadInjectionPlans ctx req.injectionPlans req.issuer req.vo reg.uuids with
    | .ok (plans, uuids) => ({ req with phase := .prepared plans }, { reg with uuids })
    | .error e => ({ req with phase := .done (.error e) }, reg)
  | .prepared plans => ({ req with phase := .snapshot plans (getInjectionPlans reg.db none) }, reg)
  | .snapshot plans presentPlans =>
    match commitLoadInjectionPlans ctx presentPlans plans reg.db with
    | .ok db => ({ req with phase := .done (.ok ()) }, { reg with db })
    | .error e => ({ req with phase := .done (.error e) }, reg)
  | .done _ => (req, reg)

def World.step (ctx : Context) (w : World) (i : Nat) : World :=
  match w.requests[i]? with
  | some req =>
    let (req', reg') := req.step ctx w.reg
    ⟨reg', w.requests.set i req'⟩
  | none => w

def World.run (ctx : Context) (w : World) (schedule : List Nat) : World :=
  schedule.foldl (World.step ctx) w

-- ---------------------------------------------------------------------------
-- No committed plan is lost
-- ---------------------------------------------------------------------------

/-- What a transaction may do to the plan tables: append live plans, and
nothing else. -/
def Db.Extends (db db' : Db) : Prop :=
  (∃ rows, db'.loadInjectionPlans.rows = db.loadInjectionPlans.rows ++ rows) ∧
    db'.loadInjectionPlansHistory = db.loadInjectionPlansHistory

theorem Db.Extends.refl (db : Db) : db.Extends db := ⟨⟨[], (List.append_nil _).symm⟩, rfl⟩

theorem Db.Extends.trans {db₁ db₂ db₃ : Db} (h₁ : db₁.Extends db₂) (h₂ : db₂.Extends db₃) :
    db₁.Extends db₃ := by
  obtain ⟨⟨rows₁, hr₁⟩, hh₁⟩ := h₁
  obtain ⟨⟨rows₂, hr₂⟩, hh₂⟩ := h₂
  exact ⟨⟨rows₁ ++ rows₂, by rw [hr₂, hr₁, List.append_assoc]⟩, hh₂.trans hh₁⟩

theorem Request.step_extends (ctx : Context) (req : Request) (reg : Registry) :
    reg.db.Extends (req.step ctx reg).2.db := by
  unfold Request.step
  split
  · split <;> exact .refl _
  · exact .refl _
  · split
    · rename_i db hc
      simp only [commitLoadInjectionPlans, bind_eq_ok] at hc
      obtain ⟨_, -, ha⟩ := hc
      obtain ⟨rows, -, hrows, hh⟩ := addInjectionPlans_rows ha
      exact ⟨⟨rows, hrows⟩, hh⟩
    · exact .refl _
  · exact .refl _

theorem World.run_cons (ctx : Context) (w : World) (i : Nat) (schedule : List Nat) :
    w.run ctx (i :: schedule) = (w.step ctx i).run ctx schedule := rfl

/-- Under every schedule the plans stored before stay stored, in their order,
and the history is untouched: concurrent submissions lose no committed plan. -/
theorem run_never_loses_plans (ctx : Context) (w : World) (schedule : List Nat) :
    w.reg.db.Extends (w.run ctx schedule).reg.db := by
  induction schedule generalizing w with
  | nil => exact .refl _
  | cons i schedule ih =>
    have hstep : w.reg.db.Extends (w.step ctx i).reg.db := by
      unfold World.step
      split
      · exact Request.step_extends ctx _ _
      · exact .refl _
    exact hstep.trans (ih _)

-- ---------------------------------------------------------------------------
-- Two requests for one pair
-- ---------------------------------------------------------------------------

/-- Both reads before either insert: both requests succeed and the table ends
with two plans for the pair. -/
theorem concurrent_submissions_both_succeed :
    let plan : Dict := samplePlan "RSE1" "RSE2"
    let w := World.run sampleContext
      ⟨Registry.empty, [⟨[plan], "root", "def", .start⟩, ⟨[plan], "root", "def", .start⟩]⟩
      [0, 1, 0, 1, 0, 1]
    w.requests.map (·.phase.succeeded) = [true, true] ∧
      w.reg.db.loadInjectionPlans.rows.map LoadInjectionPlan.pair =
        [(.str "id1", .str "id2"), (.str "id1", .str "id2")] := by
  decide

end LoadInjection
