import Mathlib.Algebra.BigOperators.Group.List
import Mathlib.Algebra.Order.Ring.Nat
import LoadInjection.Isolation

/-!
# What a request is told and what the table holds

Under every schedule of interleaved requests, the plans stored since they
started are exactly the batches of the requests that ended successfully: a
request told it succeeded has a stored row for each plan of its batch, every
stored row is one of such a request, and the table grew by the sum of the
successful batches' sizes, so a request that failed stored nothing
(`run_stores_exactly_the_successful_batches`).

This needs no hypothesis on the batches. The race of
`concurrent_submissions_both_succeed` costs the one-plan-per-pair invariant,
not this accounting: both requests are told they succeeded, and both batches
are stored.
-/

namespace LoadInjection

def Request.stored (req : Request) : Nat :=
  if req.phase.succeeded then req.injectionPlans.length else 0

def Request.InFlight (ctx : Context) (req : Request) : Prop :=
  match req.phase with
  | .prepared plans | .snapshot plans _ => Resolved ctx req.vo req.injectionPlans plans
  | _ => True

/-- The rows stored since the start, `rows`, against the requests' outcomes. -/
def World.Accounted (ctx : Context) (rows₀ : List LoadInjectionPlan) (w : World) : Prop :=
  (∀ req ∈ w.requests, req.InFlight ctx) ∧
  ∃ rows, w.reg.db.loadInjectionPlans.rows = rows₀ ++ rows ∧
    rows.length = (w.requests.map Request.stored).sum ∧
    (∀ row ∈ rows, ∃ req ∈ w.requests, req.phase.succeeded ∧
      Names ctx req.injectionPlans req.vo row.pair) ∧
    ∀ req ∈ w.requests, req.phase.succeeded → ∀ plan ∈ req.injectionPlans,
      ∃ row ∈ rows, resolvePair ctx plan req.vo = .ok row.pair

-- ---------------------------------------------------------------------------
-- The request list
-- ---------------------------------------------------------------------------

theorem mem_set_of_getElem_ne {α : Type} {l : List α} {i : Nat} {a b : α} (hb : b ∈ l)
    (hi : i < l.length) (hne : l[i] ≠ b) : b ∈ l.set i a := by
  obtain ⟨j, hj, rfl⟩ := List.mem_iff_getElem.mp hb
  have hij : i ≠ j := fun e => hne (by subst e; rfl)
  exact List.mem_iff_getElem.mpr ⟨j, by rwa [List.length_set], List.getElem_set_ne hij _⟩

theorem sum_map_set {α : Type} (f : α → Nat) :
    ∀ (l : List α) (i : Nat) (hi : i < l.length) (a : α),
      ((l.set i a).map f).sum + f l[i] = (l.map f).sum + f a
  | _ :: _, 0, _, _ => by simp only [List.set_cons_zero, List.map_cons, List.sum_cons,
      List.getElem_cons_zero]; omega
  | _ :: l, i + 1, hi, a => by
    have := sum_map_set f l i (Nat.lt_of_succ_lt_succ hi) a
    simp only [List.set_cons_succ, List.map_cons, List.sum_cons, List.getElem_cons_succ]
    omega

-- ---------------------------------------------------------------------------
-- One transaction, then every schedule
-- ---------------------------------------------------------------------------

theorem Request.step_outcome {ctx : Context} {req : Request} {reg : Registry}
    (hf : req.InFlight ctx) :
    (req.step ctx reg).1.InFlight ctx ∧ (req.step ctx reg).1.batch = req.batch ∧
      ((req.step ctx reg).2.db.loadInjectionPlans.rows = reg.db.loadInjectionPlans.rows ∧
          (req.step ctx reg).1.phase.succeeded = req.phase.succeeded ∨
        req.phase.succeeded = false ∧ (req.step ctx reg).1.phase.succeeded = true ∧
          ∃ rows, (req.step ctx reg).2.db.loadInjectionPlans.rows =
              reg.db.loadInjectionPlans.rows ++ rows ∧
            List.Forall₂ (fun plan row => resolvePair ctx plan req.vo = .ok row.pair)
              req.injectionPlans rows) := by
  obtain ⟨injectionPlans, issuer, vo, phase⟩ := req
  cases phase with
  | start =>
    simp only [Request.step]
    split
    · rename_i plans uuids hp
      exact ⟨prepareLoadInjectionPlans_resolved hp, rfl, .inl ⟨rfl, rfl⟩⟩
    · exact ⟨trivial, rfl, .inl ⟨rfl, rfl⟩⟩
  | prepared plans => exact ⟨hf, rfl, .inl ⟨rfl, rfl⟩⟩
  | snapshot plans presentPlans =>
    simp only [Request.step]
    split
    · rename_i db h
      obtain ⟨-, rows, hrows, hrel⟩ := commitLoadInjectionPlans_eq_ok hf h
      exact ⟨trivial, rfl, .inr ⟨rfl, rfl, rows, hrows, hrel.imp fun _ _ h => h.1⟩⟩
    · exact ⟨trivial, rfl, .inl ⟨rfl, rfl⟩⟩
  | done result => exact ⟨trivial, rfl, .inl ⟨rfl, rfl⟩⟩

theorem World.step_accounted {ctx : Context} {rows₀ : List LoadInjectionPlan} {w : World}
    (i : Nat) (ha : w.Accounted ctx rows₀) : (w.step ctx i).Accounted ctx rows₀ := by
  cases hreq : w.requests[i]? with
  | none =>
    simp only [World.step, hreq]
    exact ha
  | some req =>
    obtain ⟨hil, rfl⟩ := List.getElem?_eq_some_iff.mp hreq
    obtain ⟨hf, rows, hrows, hlen, hnamed, hstored⟩ := ha
    have hstep := @Request.step_outcome ctx w.requests[i] w.reg (hf _ (List.getElem_mem hil))
    simp only [World.step, hreq]
    generalize Request.step ctx w.requests[i] w.reg = s at hstep ⊢
    obtain ⟨req', reg'⟩ := s
    dsimp only [World.Accounted] at hstep ⊢
    obtain ⟨hf', hb, hcase⟩ := hstep
    simp only [Request.batch, Prod.mk.injEq] at hb
    obtain ⟨hplans, hvo⟩ := hb
    have hsum := sum_map_set Request.stored w.requests i hil req'
    refine ⟨fun r hr => (List.mem_or_eq_of_mem_set hr).elim (hf r) (· ▸ hf'), ?_⟩
    rcases hcase with ⟨hrows', hsucc⟩ | ⟨hnot, hyes, new, hrows', hrel⟩
    · -- Nothing stored: the request keeps its outcome.
      have hst : req'.stored = w.requests[i].stored := by
        simp only [Request.stored, hsucc, hplans]
      refine ⟨rows, hrows'.trans hrows, by omega, fun row hrow => ?_, fun r hr hs => ?_⟩
      · obtain ⟨r, hr, hs, hn⟩ := hnamed row hrow
        by_cases he : w.requests[i] = r
        · subst he
          exact ⟨req', List.mem_set _ _ hil _, hsucc ▸ hs, hplans ▸ hvo ▸ hn⟩
        · exact ⟨r, mem_set_of_getElem_ne hr hil he, hs, hn⟩
      · rcases List.mem_or_eq_of_mem_set hr with hr | rfl
        · exact hstored r hr hs
        · exact hplans ▸ hvo ▸ hstored _ (List.getElem_mem hil) (hsucc ▸ hs)
    · -- The commit: the batch is stored, one row per plan.
      have hst : w.requests[i].stored = 0 := by simp [Request.stored, hnot]
      have hst' : req'.stored = w.requests[i].injectionPlans.length := by
        simp [Request.stored, hyes, hplans]
      have hnew := hrel.length_eq
      refine ⟨rows ++ new, by rw [hrows', hrows, List.append_assoc], ?_, fun row hrow => ?_,
        fun r hr hs plan hplan => ?_⟩
      · rw [List.length_append]
        omega
      · rcases List.mem_append.mp hrow with hrow | hrow
        · obtain ⟨r, hr, hs, hn⟩ := hnamed row hrow
          exact ⟨r, mem_set_of_getElem_ne hr hil (fun e => by rw [← e, hnot] at hs; cases hs), hs, hn⟩
        · obtain ⟨plan, hplan, hp⟩ := forall₂_exists_right hrel row hrow
          exact ⟨req', List.mem_set _ _ hil _, hyes, plan, hplans ▸ hplan, hvo ▸ hp⟩
      · rcases List.mem_or_eq_of_mem_set hr with hr | rfl
        · obtain ⟨row, hrow, hp⟩ := hstored r hr hs plan hplan
          exact ⟨row, List.mem_append_left _ hrow, hp⟩
        · obtain ⟨row, hrow, hp⟩ := forall₂_exists_left hrel plan (hplans ▸ hplan)
          exact ⟨row, List.mem_append_right _ hrow, hvo ▸ hp⟩

theorem World.run_accounted {ctx : Context} {rows₀ : List LoadInjectionPlan} (w : World)
    (schedule : List Nat) (ha : w.Accounted ctx rows₀) : (w.run ctx schedule).Accounted ctx rows₀ := by
  induction schedule generalizing w with
  | nil => exact ha
  | cons i schedule ih => exact ih _ (World.step_accounted i ha)

/-- Under every schedule, the rows stored since the requests started are those
of the requests told they succeeded: each of them has a row for every plan of
its batch, every new row is one of theirs, and there are as many new rows as
their batches have plans. -/
theorem run_stores_exactly_the_successful_batches (ctx : Context) (w : World)
    (schedule : List Nat) (hstart : ∀ req ∈ w.requests, req.phase = .start) :
    ∃ rows, (w.run ctx schedule).reg.db.loadInjectionPlans.rows =
        w.reg.db.loadInjectionPlans.rows ++ rows ∧
      rows.length = ((w.run ctx schedule).requests.map Request.stored).sum ∧
      (∀ row ∈ rows, ∃ req ∈ (w.run ctx schedule).requests, req.phase.succeeded ∧
        Names ctx req.injectionPlans req.vo row.pair) ∧
      ∀ req ∈ (w.run ctx schedule).requests, req.phase.succeeded →
        ∀ plan ∈ req.injectionPlans, ∃ row ∈ rows, resolvePair ctx plan req.vo = .ok row.pair := by
  have hfail : ∀ req ∈ w.requests, req.phase.succeeded = false := fun req hr => by
    rw [hstart req hr]
    rfl
  have ha : w.Accounted ctx w.reg.db.loadInjectionPlans.rows := by
    refine ⟨fun req hr => by unfold Request.InFlight; rw [hstart req hr]; trivial,
      [], (List.append_nil _).symm, ?_, fun _ h => absurd h (List.not_mem_nil _),
      fun req hr hs => absurd hs (by rw [hfail req hr]; exact Bool.false_ne_true)⟩
    refine (List.sum_eq_zero fun n hn => ?_).symm
    obtain ⟨r, hr, rfl⟩ := List.mem_map.mp hn
    simp [Request.stored, hfail r hr]
  exact (World.run_accounted w schedule ha).2

theorem run_stores_exactly_the_successful_batches_example :
    let plan : Dict := samplePlan "RSE1" "RSE2"
    let w : World := ⟨Registry.empty, [⟨[plan], "root", "def", .start⟩, ⟨[plan], "root", "def", .start⟩]⟩
    ∃ rows, (w.run sampleContext [0, 1, 0, 1, 0, 1]).reg.db.loadInjectionPlans.rows =
        w.reg.db.loadInjectionPlans.rows ++ rows ∧
      rows.length = ((w.run sampleContext [0, 1, 0, 1, 0, 1]).requests.map Request.stored).sum := by
  intro plan w
  obtain ⟨rows, hrows, hlen, -⟩ := run_stores_exactly_the_successful_batches sampleContext w [0, 1, 0, 1, 0, 1]
    (by simp [w])
  exact ⟨rows, hrows, hlen⟩

end LoadInjection
