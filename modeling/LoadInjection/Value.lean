import Mathlib.Data.List.Forall2
import Mathlib.Data.Rat.Defs

/-!
# Values, dicts and exceptions

The gateway and the core pass plans around as Python dicts with string keys,
decoded from the JSON body of a request. `Dict` is an association list read
front to back: `getItem` is `d[k]` and raises `KeyError`, `get` is `d.get(k)`
with `None` for a missing key, and `setItem` is `d[k] = v`, which keeps an
existing key in its place and appends a new one.
-/

namespace LoadInjection

/-- A value held by a plan dict or a plan column. Floats are finite and kept
exactly, as the dyadic rationals they are. -/
inductive Value where
  | none
  | bool (b : Bool)
  | int (n : Int)
  | float (x : ℚ)
  | str (s : String)
  deriving DecidableEq, Repr

instance : Inhabited Value := ⟨.none⟩

/-- `str(v)`, which is what `%s` renders. -/
def Value.pyStr : Value → String
  | .none => "None"
  | .bool b => if b then "True" else "False"
  | .int n => toString n
  | .float x => toString x
  | .str s => s

def Value.ofOption {α : Type} (f : α → Value) : Option α → Value
  | some a => f a
  | Option.none => .none

/-- The exceptions the modelled code raises or lets through. -/
inductive Error where
  | keyError (key : String)
  | rseNotFound (rse : Value) (vo : String)
  | accessDenied (message : String)
  | duplicateLoadInjectionPlan (message : String)
  /-- `RucioException(error.args)` raised for an `IntegrityError` of a flush. -/
  | rucioException
  | multipleResultsFound
  deriving DecidableEq, Repr

-- ---------------------------------------------------------------------------
-- The exception monad
-- ---------------------------------------------------------------------------

theorem bind_eq_ok {ε α β : Type} {x : Except ε α} {f : α → Except ε β} {b : β} :
    x >>= f = .ok b ↔ ∃ a, x = .ok a ∧ f a = .ok b := by
  cases x <;> simp [bind, Except.bind]

theorem bind_eq_error {ε α β : Type} {x : Except ε α} {f : α → Except ε β} {e : ε} :
    x >>= f = .error e ↔ x = .error e ∨ ∃ a, x = .ok a ∧ f a = .error e := by
  cases x <;> simp [bind, Except.bind]

@[simp] theorem pure_eq_ok {ε α : Type} {a b : α} : (pure a : Except ε α) = .ok b ↔ a = b := by
  simp [pure, Except.pure]

@[simp] theorem pure_ne_error {ε α : Type} {a : α} {e : ε} : (pure a : Except ε α) ≠ .error e := by
  simp [pure, Except.pure]

theorem map_eq_ok {ε α β : Type} {g : α → β} {x : Except ε α} {b : β} :
    g <$> x = .ok b ↔ ∃ a, x = .ok a ∧ g a = b := by
  cases x <;> simp [Functor.map, Except.map]

theorem mapM_eq_ok {ε α β : Type} {f : α → Except ε β} {l : List α} {l' : List β} :
    l.mapM f = .ok l' ↔ List.Forall₂ (fun a b => f a = .ok b) l l' := by
  induction l generalizing l' with
  | nil => rw [List.mapM_nil, pure_eq_ok, List.forall₂_nil_left_iff, eq_comm]
  | cons a l ih =>
    simp only [List.mapM_cons, bind_eq_ok, map_eq_ok, ih]
    cases l' with
    | nil => simp
    | cons b l' =>
      simp only [pure_eq_ok, List.cons.injEq, List.forall₂_cons]
      constructor
      · rintro ⟨_, h, _, hl, rfl, rfl⟩
        exact ⟨h, hl⟩
      · rintro ⟨h, hl⟩
        exact ⟨_, h, _, hl, rfl, rfl⟩

theorem forall₂_compose {α β γ : Type} {R : α → β → Prop} {S : β → γ → Prop}
    {T : α → γ → Prop} :
    ∀ {l₁ l₂ l₃}, (∀ a b c, b ∈ l₂ → R a b → S b c → T a c) →
      List.Forall₂ R l₁ l₂ → List.Forall₂ S l₂ l₃ → List.Forall₂ T l₁ l₃
  | _, _, _, _, .nil, .nil => .nil
  | _, _, _, h, .cons h₁ t₁, .cons h₂ t₂ =>
    .cons (h _ _ _ (List.mem_cons_self _ _) h₁ h₂)
      (forall₂_compose (fun a b c hb => h a b c (List.mem_cons_of_mem _ hb)) t₁ t₂)

theorem forall₂_exists_left {α β : Type} {R : α → β → Prop} :
    ∀ {l₁ : List α} {l₂ : List β}, List.Forall₂ R l₁ l₂ → ∀ a ∈ l₁, ∃ b ∈ l₂, R a b
  | _, _, .nil => fun _ h => absurd h (List.not_mem_nil _)
  | _, _, .cons h t => fun a ha => (List.mem_cons.mp ha).elim
      (fun e => ⟨_, List.mem_cons_self _ _, e ▸ h⟩)
      (fun ha => (forall₂_exists_left t a ha).imp fun _ ⟨hb, hr⟩ => ⟨List.mem_cons_of_mem _ hb, hr⟩)

theorem forall₂_exists_right {α β : Type} {R : α → β → Prop} {l₁ : List α} {l₂ : List β}
    (h : List.Forall₂ R l₁ l₂) : ∀ b ∈ l₂, ∃ a ∈ l₁, R a b :=
  forall₂_exists_left (List.Forall₂.flip (show List.Forall₂ (flip (flip R)) l₁ l₂ from h))

theorem forall₂_forall_mem_right {α β : Type} {P : β → Prop} :
    ∀ {l₁ : List α} {l₂ : List β}, List.Forall₂ (fun _ b => P b) l₁ l₂ → ∀ b ∈ l₂, P b
  | _, _, .nil => fun _ h => absurd h (List.not_mem_nil _)
  | _, _, .cons h t => fun b hb => (List.mem_cons.mp hb).elim (fun e => e ▸ h) (forall₂_forall_mem_right t b)

-- ---------------------------------------------------------------------------
-- Dicts
-- ---------------------------------------------------------------------------

abbrev Dict := List (String × Value)

namespace Dict

def getItem (d : Dict) (key : String) : Except Error Value :=
  match d.lookup key with
  | some v => .ok v
  | Option.none => .error (.keyError key)

def get (d : Dict) (key : String) : Value := (d.lookup key).getD .none

def setItem : Dict → String → Value → Dict
  | [], key, v => [(key, v)]
  | (k, w) :: rest, key, v => if k = key then (key, v) :: rest else (k, w) :: setItem rest key v

theorem getItem_eq_ok {d : Dict} : d.getItem key = .ok v ↔ d.lookup key = some v := by
  unfold getItem
  cases d.lookup key <;> simp

theorem getItem_eq_error {d : Dict} :
    d.getItem key = .error e ↔ d.lookup key = Option.none ∧ .keyError key = e := by
  unfold getItem
  cases d.lookup key <;> simp

theorem lookup_cons (k key : String) (v : Value) (rest : Dict) :
    ((key, v) :: rest).lookup k = if k = key then some v else rest.lookup k := by
  rw [List.lookup_cons]
  by_cases h : k = key
  · simp [h]
  · simp [beq_eq_false_iff_ne.mpr h, h]

theorem lookup_setItem (d : Dict) (key k : String) (v : Value) :
    (d.setItem key v).lookup k = if k = key then some v else d.lookup k := by
  induction d with
  | nil => simp only [setItem, lookup_cons]
  | cons kw rest ih =>
    obtain ⟨k', w⟩ := kw
    by_cases hk : k' = key
    · subst hk; by_cases h : k = k' <;> simp [setItem, lookup_cons, h]
    · by_cases h : k = k' <;> simp [setItem, lookup_cons, hk, h, ih]

theorem lookup_setItem_ne (d : Dict) {key k : String} (v : Value) (h : k ≠ key) :
    (d.setItem key v).lookup k = d.lookup k := by simp [lookup_setItem, h]

theorem getItem_setItem_ne (d : Dict) {key k : String} (v : Value) (h : k ≠ key) :
    (d.setItem key v).getItem k = d.getItem k := by
  simp only [getItem, lookup_setItem_ne d v h]

end Dict

end LoadInjection
