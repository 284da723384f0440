import LoadInjection.Interleaving

/-!
# Requests for different pairs

The duplicate check reads a snapshot and the insert commits in another
transaction, so two requests for one pair can both store it
(`concurrent_submissions_both_succeed`). That is the only window: requests
whose batches name pairwise different pairs keep one plan per pair under every
schedule (`requests_for_different_pairs_keep_one_plan_per_pair`), provided each
batch is one the check guards when it runs alone (`Guarded`).

The invariant carried along a run is `World.Safe`: one plan per pair, and every
request in flight consistent with the table. A request that has read the table
finds in its snapshot every stored plan of its own pairs, because only a
request naming one of those pairs could have stored one since, and no other
request does.
-/

namespace LoadInjection

def Names (ctx : Context) (plans : List Dict) (vo : String) (pair : Value × Value) : Prop :=
  ∃ plan ∈ plans, resolvePair ctx plan vo = .ok pair

def Request.batch (req : Request) : List Dict × String := (req.injectionPlans, req.vo)

/-- Two submissions name no pair in common. -/
def Apart (ctx : Context) (b b' : List Dict × String) : Prop :=
  ∀ pair, Names ctx b.1 b.2 pair → ¬Names ctx b'.1 b'.2 pair

def Request.Consistent (ctx : Context) (db : Db) (req : Request) : Prop :=
  match req.phase with
  | .prepared plans => Resolved ctx req.vo req.injectionPlans plans
  | .snapshot plans presentPlans => Resolved ctx req.vo req.injectionPlans plans ∧
    ∀ row ∈ db.loadInjectionPlans.rows, Names ctx req.injectionPlans req.vo row.pair →
      Lists presentPlans row.pair
  | _ => True

/-- The invariant of interleaved requests. -/
def World.Safe (ctx : Context) (w : World) : Prop :=
  AtMostOnePerPair w.reg.db ∧ ∀ req ∈ w.requests, req.Consistent ctx w.reg.db

-- ---------------------------------------------------------------------------
-- Sample requests for two pairs
-- ---------------------------------------------------------------------------

/-- Two requests started together on the empty registry, from `RSE1` to `RSE2`
and back. -/
def sampleRequests : World :=
  ⟨Registry.empty, [⟨[samplePlan "RSE1" "RSE2"], "root", "def", .start⟩,
    ⟨[samplePlan "RSE2" "RSE1"], "root", "def", .start⟩]⟩

theorem sampleRequests_start : ∀ req ∈ sampleRequests.requests, req.phase = .start := by
  simp only [sampleRequests, List.mem_cons, List.mem_singleton, List.not_mem_nil, or_false]
  rintro _ (rfl | rfl) <;> rfl

theorem sampleRequests_guarded :
    ∀ req ∈ sampleRequests.requests, Guarded sampleContext req.injectionPlans req.vo := by
  simp only [sampleRequests, List.mem_cons, List.mem_singleton, List.not_mem_nil, or_false]
  rintro _ (rfl | rfl) <;> exact guarded_of_resolves rfl rfl (by decide)

theorem sampleRequests_apart :
    (sampleRequests.requests.map Request.batch).Pairwise (Apart sampleContext) := by
  refine List.pairwise_pair.mpr fun pair ⟨_, hp₁, e₁⟩ ⟨_, hp₂, e₂⟩ => ?_
  obtain rfl := List.mem_singleton.mp hp₁
  obtain rfl := List.mem_singleton.mp hp₂
  have e : (Except.ok (.str "id1", .str "id2") : Except Error (Value × Value)) =
      .ok (.str "id2", .str "id1") := calc
    _ = resolvePair sampleContext (samplePlan "RSE1" "RSE2") "def" := rfl
    _ = resolvePair sampleContext (samplePlan "RSE2" "RSE1") "def" := e₁.trans e₂.symm
    _ = _ := rfl
  exact absurd (Except.ok.inj e) (by decide)

-- ---------------------------------------------------------------------------
-- One request
-- ---------------------------------------------------------------------------

theorem checkedRows_fresh {ctx : Context} {vo : String}
    {injectionPlans plans presentPlans : List Dict} {db : Db} {rows : List LoadInjectionPlan}
    (hg : Guarded ctx injectionPlans vo) (hr : Resolved ctx vo injectionPlans plans)
    (hseen : ∀ row ∈ db.loadInjectionPlans.rows, Names ctx injectionPlans vo row.pair →
      Lists presentPlans row.pair)
    (hc : checkDuplicates ctx presentPlans plans = .ok ())
    (hm : plans.mapM LoadInjectionPlan.ofDict = .ok rows) :
    (rows.map LoadInjectionPlan.pair).Nodup ∧
      (∀ row ∈ rows, row.pair ∉ db.loadInjectionPlans.rows.map LoadInjectionPlan.pair) ∧
      ∀ row ∈ rows, Names ctx injectionPlans vo row.pair := by
  have hrel := checkedRows_forall₂ hr hc hm
  have hvo : injectionPlans.mapM (resolvePair ctx · vo) = .ok (rows.map LoadInjectionPlan.pair) :=
    mapM_eq_ok.mpr (List.forall₂_map_right_iff.mpr (hrel.imp fun _ _ h => h.1))
  obtain ⟨hdef, hnodup⟩ := hg _ hvo
  have hnames : ∀ row ∈ rows, Names ctx injectionPlans vo row.pair :=
    forall₂_forall_mem_right <| forall₂_compose (fun _ plan _ hmem _ h => ⟨plan, hmem, h.1⟩)
      (List.forall₂_same.mpr fun _ _ => rfl) hrel
  have hfresh := forall₂_forall_mem_right <|
    (List.forall₂_map_right_iff.mp (mapM_eq_ok.mp hdef)).mp
      (fun _ row hd ⟨_, pair, hp, hnot⟩ => (Except.ok.inj (hp.symm.trans hd)) ▸ hnot) hrel
  refine ⟨hnodup, fun row hrow hin => ?_, hnames⟩
  obtain ⟨r, hr, hpair⟩ := List.mem_map.mp hin
  exact hfresh row hrow (hpair ▸ hseen r hr (hpair ▸ hnames row hrow))

theorem commit_keeps_invariant {ctx : Context} {vo : String}
    {injectionPlans plans presentPlans : List Dict} {db db' : Db}
    (hg : Guarded ctx injectionPlans vo) (hr : Resolved ctx vo injectionPlans plans)
    (hseen : ∀ row ∈ db.loadInjectionPlans.rows, Names ctx injectionPlans vo row.pair →
      Lists presentPlans row.pair)
    (hi : AtMostOnePerPair db) (h : commitLoadInjectionPlans ctx presentPlans plans db = .ok db') :
    AtMostOnePerPair db' ∧ ∃ rows, db'.loadInjectionPlans.rows = db.loadInjectionPlans.rows ++ rows ∧
      ∀ row ∈ rows, Names ctx injectionPlans vo row.pair := by
  simp only [commitLoadInjectionPlans, bind_eq_ok] at h
  obtain ⟨⟨⟩, hc, ha⟩ := h
  obtain ⟨rows, hm, hrows, -⟩ := addInjectionPlans_rows ha
  obtain ⟨hnodup, hnew, hnames⟩ := checkedRows_fresh hg hr hseen hc hm
  refine ⟨?_, rows, hrows, hnames⟩
  unfold AtMostOnePerPair
  rw [hrows, List.map_append]
  exact hi.append hnodup fun p hp hp' => by
    obtain ⟨row, hrow, rfl⟩ := List.mem_map.mp hp'
    exact hnew row hrow hp

theorem prepareLoadInjectionPlans_resolved {ctx : Context} {injectionPlans plans : List Dict}
    {issuer vo : String} {n n' : Nat}
    (h : prepareLoadInjectionPlans ctx injectionPlans issuer vo n = .ok (plans, n')) :
    Resolved ctx vo injectionPlans plans := by
  simp only [prepareLoadInjectionPlans, bind_eq_ok, pure_eq_ok] at h
  obtain ⟨⟨plans', m⟩, hr, -, -, hpm⟩ := h
  simp only [Prod.mk.injEq] at hpm
  exact hpm.1 ▸ resolvePlans_resolved hr

theorem Request.Consistent.append {ctx : Context} {req : Request} {db db' : Db}
    {rows : List LoadInjectionPlan} (hc : req.Consistent ctx db)
    (hrows : db'.loadInjectionPlans.rows = db.loadInjectionPlans.rows ++ rows)
    (hn : ∀ row ∈ rows, ¬Names ctx req.injectionPlans req.vo row.pair) : req.Consistent ctx db' := by
  obtain ⟨injectionPlans, issuer, vo, phase⟩ := req
  cases phase with
  | snapshot plans presentPlans =>
    refine ⟨hc.1, fun row hrow hnames => ?_⟩
    rcases List.mem_append.mp (hrows ▸ hrow) with hrow | hrow
    · exact hc.2 row hrow hnames
    · exact (hn row hrow hnames).elim
  | _ => exact hc

theorem Request.step_safe {ctx : Context} {req : Request} {reg : Registry}
    (hg : Guarded ctx req.injectionPlans req.vo) (hi : AtMostOnePerPair reg.db)
    (hc : req.Consistent ctx reg.db) :
    AtMostOnePerPair (req.step ctx reg).2.db ∧
      (req.step ctx reg).1.Consistent ctx (req.step ctx reg).2.db ∧
      ∃ rows, (req.step ctx reg).2.db.loadInjectionPlans.rows = reg.db.loadInjectionPlans.rows ++ rows ∧
        ∀ row ∈ rows, Names ctx req.injectionPlans req.vo row.pair := by
  have hnone : ∃ rows, reg.db.loadInjectionPlans.rows = reg.db.loadInjectionPlans.rows ++ rows ∧
      ∀ row ∈ rows, Names ctx req.injectionPlans req.vo row.pair :=
    ⟨[], (List.append_nil _).symm, fun _ h => absurd h (List.not_mem_nil _)⟩
  obtain ⟨injectionPlans, issuer, vo, phase⟩ := req
  cases phase with
  | start =>
    simp only [Request.step]
    split
    · rename_i plans uuids hp
      exact ⟨hi, prepareLoadInjectionPlans_resolved hp, hnone⟩
    · exact ⟨hi, trivial, hnone⟩
  | prepared plans =>
    exact ⟨hi, ⟨hc, fun row hrow _ => (lists_getInjectionPlans _ _).mpr (List.mem_map_of_mem _ hrow)⟩,
      hnone⟩
  | snapshot plans presentPlans =>
    simp only [Request.step]
    split
    · rename_i db h
      obtain ⟨hi', rows, hrows, hnames⟩ := commit_keeps_invariant hg hc.1 hc.2 hi h
      exact ⟨hi', trivial, rows, hrows, hnames⟩
    · exact ⟨hi, trivial, hnone⟩
  | done result => exact ⟨hi, trivial, hnone⟩

-- ---------------------------------------------------------------------------
-- Every schedule
-- ---------------------------------------------------------------------------

theorem set_getElem_self {α : Type} : ∀ (l : List α) (i : Nat) (h : i < l.length), l.set i l[i] = l
  | _ :: _, 0, _ => rfl
  | a :: l, i + 1, h => congrArg (a :: ·) (set_getElem_self l i (Nat.lt_of_succ_lt_succ h))

theorem forall_mem_set {α : Type} {P : α → Prop} {l : List α} {i : Nat} {a : α} (ha : P a)
    (h : ∀ j (hj : j < l.length), i ≠ j → P l[j]) : ∀ r ∈ l.set i a, P r := by
  intro r hr
  obtain ⟨j, hj, rfl⟩ := List.mem_iff_getElem.mp hr
  rw [List.getElem_set]
  split
  · exact ha
  · exact h j (by rwa [List.length_set] at hj) ‹_›

theorem Request.step_batch (ctx : Context) (req : Request) (reg : Registry) :
    (req.step ctx reg).1.batch = req.batch := by
  unfold Request.step
  split <;> (try split) <;> rfl

theorem World.step_batches (ctx : Context) (w : World) (i : Nat) :
    (w.step ctx i).requests.map Request.batch = w.requests.map Request.batch := by
  cases hreq : w.requests[i]? with
  | none => simp only [World.step, hreq]
  | some req =>
    obtain ⟨hil, rfl⟩ := List.getElem?_eq_some_iff.mp hreq
    have hb := Request.step_batch ctx w.requests[i] w.reg
    have hself := set_getElem_self (w.requests.map Request.batch) i (by rwa [List.length_map])
    rw [List.getElem_map] at hself
    simp only [World.step, hreq]
    generalize Request.step ctx w.requests[i] w.reg = s at hb ⊢
    obtain ⟨req', reg'⟩ := s
    rwa [List.map_set, hb]

theorem apart_of_ne {ctx : Context} {l : List Request}
    (hd : (l.map Request.batch).Pairwise (Apart ctx)) {i j : Nat} (hi : i < l.length)
    (hj : j < l.length) (hij : i ≠ j) : Apart ctx l[i].batch l[j].batch := by
  have hp := List.pairwise_iff_getElem.mp hd
  rcases Nat.lt_or_gt_of_ne hij with h | h
  · have hij := hp i j (by simpa) (by simpa) h
    rwa [List.getElem_map, List.getElem_map] at hij
  · have hji := hp j i (by simpa) (by simpa) h
    rw [List.getElem_map, List.getElem_map] at hji
    exact fun pair h₁ h₂ => hji pair h₂ h₁

theorem World.step_safe {ctx : Context} {w : World} (i : Nat) (hs : w.Safe ctx)
    (hg : ∀ b ∈ w.requests.map Request.batch, Guarded ctx b.1 b.2)
    (hd : (w.requests.map Request.batch).Pairwise (Apart ctx)) : (w.step ctx i).Safe ctx := by
  cases hreq : w.requests[i]? with
  | none =>
    simp only [World.step, hreq]
    exact hs
  | some req =>
    obtain ⟨hil, rfl⟩ := List.getElem?_eq_some_iff.mp hreq
    have hmem := List.getElem_mem hil
    have hstep := Request.step_safe (hg w.requests[i].batch (List.mem_map_of_mem _ hmem)) hs.1 (hs.2 _ hmem)
    simp only [World.step, hreq]
    generalize Request.step ctx w.requests[i] w.reg = s at hstep ⊢
    obtain ⟨req', reg'⟩ := s
    obtain ⟨hi', hc', rows, hrows, hnames⟩ := hstep
    exact ⟨hi', forall_mem_set hc' fun j hj hij => (hs.2 _ (List.getElem_mem hj)).append hrows
      fun row hrow hn => apart_of_ne hd hil hj hij row.pair (hnames row hrow) hn⟩

theorem World.run_safe {ctx : Context} (w : World) (schedule : List Nat) (hs : w.Safe ctx)
    (hg : ∀ b ∈ w.requests.map Request.batch, Guarded ctx b.1 b.2)
    (hd : (w.requests.map Request.batch).Pairwise (Apart ctx)) :
    (w.run ctx schedule).Safe ctx := by
  induction schedule generalizing w with
  | nil => exact hs
  | cons i schedule ih =>
    have hb := World.step_batches ctx w i
    exact ih _ (World.step_safe i hs hg hd) (hb ▸ hg) (hb ▸ hd)

/-- Requests started together, each guarded on its own and naming pairs no
other names, keep one plan per pair under every schedule of their
transactions. -/
theorem requests_for_different_pairs_keep_one_plan_per_pair (ctx : Context) (w : World)
    (schedule : List Nat) (hi : AtMostOnePerPair w.reg.db)
    (hstart : ∀ req ∈ w.requests, req.phase = .start)
    (hg : ∀ req ∈ w.requests, Guarded ctx req.injectionPlans req.vo)
    (hd : (w.requests.map Request.batch).Pairwise (Apart ctx)) :
    AtMostOnePerPair (w.run ctx schedule).reg.db := by
  have hc : ∀ req ∈ w.requests, req.Consistent ctx w.reg.db := fun req hr => by
    unfold Request.Consistent
    rw [hstart req hr]
    trivial
  refine (World.run_safe w schedule ⟨hi, hc⟩ (fun b hb => ?_) hd).1
  obtain ⟨r, hr, rfl⟩ := List.mem_map.mp hb
  exact hg r hr

theorem requests_for_different_pairs_keep_one_plan_per_pair_example :
    AtMostOnePerPair (sampleRequests.run sampleContext [0, 1, 0, 1, 0, 1]).reg.db :=
  requests_for_different_pairs_keep_one_plan_per_pair sampleContext sampleRequests _ List.nodup_nil
    sampleRequests_start sampleRequests_guarded sampleRequests_apart

end LoadInjection
