import LoadInjection.Isolation

/-!
# State transitions and deletes among submissions

Besides the submitters, whatever drives the plans' lifecycle calls
`update_injection_plan_state`, `delete_injection_plan` and
`delete_injection_plans`, each in a session of its own, at any point between
the transactions of the submissions. A `Call` is one such call, and an
`Event` is the next transaction of a request or a call.

None of them adds a row or moves one to another pair: an update rewrites the
state of the rows of its pair, and a delete drops rows. So a snapshot that
held every stored plan of a request's pairs still does after the call, and the
guarantee of `requests_for_different_pairs_keep_one_plan_per_pair` holds with
the calls interleaved anywhere (`calls_keep_one_plan_per_pair`).
-/

namespace LoadInjection

/-- A call of the core's state and delete functions, in a session of its own. -/
inductive Call where
  | updateInjectionPlanState (srcRseId destRseId newState : String)
  | deleteInjectionPlan (srcRseId destRseId : String)
  | deleteInjectionPlans (injectionPlans : List Dict)

def Call.toOp : Call → Op
  | .updateInjectionPlanState srcRseId destRseId newState =>
    .updateInjectionPlanState srcRseId destRseId newState
  | .deleteInjectionPlan srcRseId destRseId => .deleteInjectionPlan srcRseId destRseId
  | .deleteInjectionPlans injectionPlans => .deleteInjectionPlans injectionPlans

inductive Event where
  | request (i : Nat)
  | call (c : Call)

def World.event (ctx : Context) (w : World) : Event → World
  | .request i => w.step ctx i
  | .call c => { w with reg := LoadInjection.step ctx w.reg c.toOp }

def World.runEvents (ctx : Context) (w : World) (events : List Event) : World :=
  events.foldl (World.event ctx) w

-- ---------------------------------------------------------------------------
-- A call
-- ---------------------------------------------------------------------------

theorem Call.step_pairs (ctx : Context) (reg : Registry) (c : Call) :
    ∀ p ∈ (step ctx reg c.toOp).db.loadInjectionPlans.rows.map LoadInjectionPlan.pair,
      p ∈ reg.db.loadInjectionPlans.rows.map LoadInjectionPlan.pair := by
  unfold step transactional
  split
  · rename_i reg' h
    cases c with
    | updateInjectionPlanState src dest newState =>
      simp only [Call.toOp, Op.apply, Except.ok.injEq] at h
      subst h
      exact fun p hp => updateInjectionPlanState_pairs src dest newState reg.db ▸ hp
    | deleteInjectionPlan _ _ | deleteInjectionPlans _ =>
      simp only [Call.toOp, Op.apply, map_eq_ok] at h
      obtain ⟨db, hd, rfl⟩ := h
      exact ((deleteInjectionPlans_sublist hd).1.map _).subset
  · exact fun _ => id

theorem World.call_safe {ctx : Context} {w : World} (c : Call) (hs : w.Safe ctx) :
    (w.event ctx (.call c)).Safe ctx := by
  have hop : c.toOp.Guarded ctx := by cases c <;> trivial
  refine ⟨step_keeps_invariant hop hs.1, fun req hr => ?_⟩
  have hc := hs.2 req hr
  obtain ⟨injectionPlans, issuer, vo, phase⟩ := req
  cases phase with
  | snapshot plans presentPlans =>
    refine ⟨hc.1, fun row hrow hn => ?_⟩
    obtain ⟨r, hr, he⟩ := List.mem_map.mp (Call.step_pairs ctx w.reg c row.pair (List.mem_map_of_mem _ hrow))
    obtain ⟨q, hq, hs, hd⟩ := hc.2 r hr (he ▸ hn)
    exact ⟨q, hq, hs.trans (congrArg Prod.fst he), hd.trans (congrArg Prod.snd he)⟩
  | _ => exact hc

-- ---------------------------------------------------------------------------
-- Every interleaving
-- ---------------------------------------------------------------------------

theorem World.runEvents_safe {ctx : Context} (w : World) (events : List Event) (hs : w.Safe ctx)
    (hg : ∀ b ∈ w.requests.map Request.batch, Guarded ctx b.1 b.2)
    (hd : (w.requests.map Request.batch).Pairwise (Apart ctx)) :
    (w.runEvents ctx events).Safe ctx := by
  induction events generalizing w with
  | nil => exact hs
  | cons e events ih =>
    cases e with
    | request i =>
      have hb := World.step_batches ctx w i
      exact ih _ (World.step_safe i hs hg hd) (hb ▸ hg) (hb ▸ hd)
    | call c => exact ih _ (World.call_safe c hs) hg hd

/-- Requests started together, each guarded on its own and naming pairs no
other names, keep one plan per pair under every interleaving of their
transactions with state updates and deletes. -/
theorem calls_keep_one_plan_per_pair (ctx : Context) (w : World) (events : List Event)
    (hi : AtMostOnePerPair w.reg.db) (hstart : ∀ req ∈ w.requests, req.phase = .start)
    (hg : ∀ req ∈ w.requests, Guarded ctx req.injectionPlans req.vo)
    (hd : (w.requests.map Request.batch).Pairwise (Apart ctx)) :
    AtMostOnePerPair (w.runEvents ctx events).reg.db := by
  have hc : ∀ req ∈ w.requests, req.Consistent ctx w.reg.db := fun req hr => by
    unfold Request.Consistent
    rw [hstart req hr]
    trivial
  refine (World.runEvents_safe w events ⟨hi, hc⟩ (fun b hb => ?_) hd).1
  obtain ⟨r, hr, rfl⟩ := List.mem_map.mp hb
  exact hg r hr

theorem calls_keep_one_plan_per_pair_example :
    let events : List Event :=
      [.request 0, .request 1, .request 0, .request 1, .request 0,
       .call (.updateInjectionPlanState "id1" "id2" "RUNNING"), .call (.deleteInjectionPlan "id1" "id2"),
       .request 1]
    (sampleRequests.runEvents sampleContext events).reg.db.loadInjectionPlans.rows.map
        LoadInjectionPlan.pair = [(.str "id2", .str "id1")] ∧
      AtMostOnePerPair (sampleRequests.runEvents sampleContext events).reg.db := by
  intro events
  exact ⟨by decide, calls_keep_one_plan_per_pair sampleContext sampleRequests events List.nodup_nil
    sampleRequests_start sampleRequests_guarded sampleRequests_apart⟩

end LoadInjection
