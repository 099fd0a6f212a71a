import ComputeGraph.Builder.Basic
import Mathlib.Data.List.Forall2

/-!
# Outcomes of attempts and of work on a graph

An attempt in sequence succeeds if each part does, and fails with the error of the first part that
fails. Work on a graph is read as a relation: what it yields on a graph, and the graph after it.

* `Attempt.bind_eq_ok`, `Attempt.bind_eq_error` — the two outcomes of a sequence of attempts;
* `AgreeUpTo` — attempts that succeed with related results or fail with related errors;
* `Build.Yields`, `Build.Fails` — work that succeeds or fails, with the graph that it leaves;
* **`Build.yields_bind`** — successful work in sequence goes through a graph in between;
* **`Build.fails_bind`** — work in sequence fails in one of its parts;
* **`Build.graph_bind`** — what holds of a graph after each part holds after the whole, also where
  a part fails;
* `Attempt.Reports`, `Build.Reports` — errors that work fails with, or gives as the reason for a
  shape that is left open;
* **`Build.reports_bind`** — what work in sequence reports.
-/

namespace ComputeGraph

variable {α β : Type}

/-! ### Results that may be errors -/

theorem except_bind_eq_ok {x : Except Error α} {f : α → Except Error β} {b : β} :
    x.bind f = .ok b ↔ ∃ a, x = .ok a ∧ f a = .ok b := by
  cases x with
  | error e => simp [Except.bind]
  | ok a => simp [Except.bind]

theorem except_bind_eq_error {x : Except Error α} {f : α → Except Error β} {e : Error} :
    x.bind f = .error e ↔ x = .error e ∨ ∃ a, x = .ok a ∧ f a = .error e := by
  cases x with
  | error e' => simp [Except.bind]
  | ok a => simp [Except.bind]

theorem except_map_eq_ok {x : Except Error α} {f : α → β} {b : β} :
    x.map f = .ok b ↔ ∃ a, x = .ok a ∧ f a = b := by
  cases x with
  | error e => simp [Except.map]
  | ok a => simp [Except.map]

theorem except_map_eq_error {x : Except Error α} {f : α → β} {e : Error} :
    x.map f = .error e ↔ x = .error e := by
  cases x with
  | error e' => simp [Except.map]
  | ok a => simp [Except.map]

theorem exists_map_eq_ok {x : Except Error α} {f : α → β} :
    (∃ b, x.map f = .ok b) ↔ ∃ a, x = .ok a := by
  cases x with
  | error e => simp [Except.map]
  | ok a => simp [Except.map]

theorem except_map_bind {γ : Type} (x : Except Error α) (f : α → Except Error β) (g : β → γ) :
    (x.bind f).map g = x.bind fun a => (f a).map g := by
  cases x <;> rfl

/-- A list is worked through if each of its members is. -/
theorem mapM_eq_ok {f : α → Except Error β} {xs : List α} {ys : List β} :
    xs.mapM f = .ok ys ↔ List.Forall₂ (fun x y => f x = .ok y) xs ys := by
  induction xs generalizing ys with
  | nil =>
    rw [List.mapM_nil, List.forall₂_nil_left_iff]
    exact ⟨fun h => (Except.ok.inj h).symm, fun h => h ▸ rfl⟩
  | cons x xs ih =>
    rw [List.mapM_cons, List.forall₂_cons_left_iff]
    constructor
    · intro h
      obtain ⟨y, hy, h⟩ := except_bind_eq_ok.1 h
      obtain ⟨rest, hrest, h⟩ := except_bind_eq_ok.1 h
      exact ⟨y, rest, hy, ih.1 hrest, (Except.ok.inj h).symm⟩
    · intro h
      obtain ⟨y, rest, hy, hrest, rfl⟩ := h
      exact except_bind_eq_ok.2 ⟨y, hy, except_bind_eq_ok.2 ⟨rest, ih.2 hrest, rfl⟩⟩

/-- Working through a list fails at the first of its members that fails. -/
theorem mapM_eq_error {f : α → Except Error β} {xs : List α} {e : Error} :
    xs.mapM f = .error e ↔ ∃ before x after, xs = before ++ x :: after ∧
      (∀ y ∈ before, ∃ b, f y = .ok b) ∧ f x = .error e := by
  constructor
  · intro h
    induction xs with
    | nil => cases h
    | cons x xs ih =>
      rw [List.mapM_cons] at h
      rcases except_bind_eq_error.1 h with hx | ⟨y, hy, h⟩
      · exact ⟨[], x, xs, rfl, by simp, hx⟩
      · rcases except_bind_eq_error.1 h with hrest | ⟨rest, -, h⟩
        · obtain ⟨before, x', after, rfl, hbefore, hx'⟩ := ih hrest
          exact ⟨x :: before, x', after, rfl, List.forall_mem_cons.2 ⟨⟨y, hy⟩, hbefore⟩, hx'⟩
        · cases h
  · intro h
    obtain ⟨before, x, after, rfl, hbefore, hx⟩ := h
    induction before with
    | nil =>
      rw [List.nil_append, List.mapM_cons]
      exact except_bind_eq_error.2 (.inl hx)
    | cons y before ih =>
      obtain ⟨⟨b, hb⟩, hbefore⟩ := List.forall_mem_cons.1 hbefore
      rw [List.cons_append, List.mapM_cons]
      exact except_bind_eq_error.2
        (.inr ⟨b, hb, except_bind_eq_error.2 (.inl (ih hbefore))⟩)

theorem mapM_eq_some {f : α → Option β} {xs : List α} {ys : List β} :
    xs.mapM f = some ys ↔ List.Forall₂ (fun x y => f x = some y) xs ys := by
  induction xs generalizing ys with
  | nil =>
    rw [List.mapM_nil, List.forall₂_nil_left_iff]
    exact ⟨fun h => (Option.some.inj h).symm, fun h => h ▸ rfl⟩
  | cons x xs ih =>
    rw [List.mapM_cons, List.forall₂_cons_left_iff]
    constructor
    · intro h
      obtain ⟨y, hy, h⟩ := Option.bind_eq_some_iff.1 h
      obtain ⟨rest, hrest, h⟩ := Option.bind_eq_some_iff.1 h
      exact ⟨y, rest, hy, ih.1 hrest, (Option.some.inj h).symm⟩
    · rintro ⟨y, rest, hy, hrest, rfl⟩
      exact Option.bind_eq_some_iff.2 ⟨y, hy, Option.bind_eq_some_iff.2 ⟨rest, ih.2 hrest, rfl⟩⟩

theorem mapM_eq_none {f : α → Option β} {xs : List α} :
    xs.mapM f = none ↔ ∃ x ∈ xs, f x = none := by
  induction xs with
  | nil => simp
  | cons x xs ih =>
    rw [List.mapM_cons]
    simp only [List.mem_cons, exists_eq_or_imp, ← ih]
    cases f x with
    | none => simp
    | some y => cases xs.mapM f <;> simp

/-- Two partial steps on each member of a list are one partial step on each. -/
theorem mapM_bind_mapM {γ : Type} (f : α → Option β) (g : β → Option γ) (xs : List α) :
    ((xs.mapM f).bind fun ys => ys.mapM g) = xs.mapM fun x => (f x).bind g := by
  induction xs with
  | nil => rfl
  | cons x xs ih =>
    rw [List.mapM_cons, List.mapM_cons, ← ih]
    cases f x with
    | none => rfl
    | some y =>
      cases xs.mapM f with
      | none => cases hy : g y <;> simp [hy]
      | some ys => simp

/-! ### Attempts -/

namespace Attempt

theorem bind_eq_ok {x : Attempt α} {f : α → Attempt β} {b : β} :
    (x >>= f).result = .ok b ↔ ∃ a, x.result = .ok a ∧ (f a).result = .ok b := by
  rw [result_bind]
  exact except_bind_eq_ok

theorem bind_eq_error {x : Attempt α} {f : α → Attempt β} {e : Error} :
    (x >>= f).result = .error e ↔
      x.result = .error e ∨ ∃ a, x.result = .ok a ∧ (f a).result = .error e := by
  rw [result_bind]
  exact except_bind_eq_error

/-- What follows an attempt matters only for the result that the attempt has. -/
theorem bind_congr {x : Attempt α} {f g : α → Attempt β}
    (h : ∀ a, x.result = .ok a → f a = g a) : x >>= f = x >>= g := by
  show andThen x f = andThen x g
  unfold andThen
  cases hx : x.result with
  | error e => rfl
  | ok a => simp only [h a hx]

/-- What is recorded first does not matter for the result. -/
theorem result_record_bind (entry : LogRecord) (f : Unit → Attempt β) :
    (record entry >>= f).result = (f ()).result := by
  rw [result_bind]
  rfl

theorem result_toEngine_bind (shape : Shape) (f : EngineShape → Attempt β) :
    (toEngine shape >>= f).result = (f shape.toEngine).result := by
  rw [result_bind]
  rfl

/-- A shape is left open only where that is allowed and it cannot be found. -/
theorem shapeOrUnknown_eq_ok {strict : Bool} {output : String}
    {found : Except Error (Option Extents)} {shape : Option Extents} :
    (shapeOrUnknown strict output found).result = .ok shape ↔
      found = .ok shape ∨ (∃ e, found = .error e) ∧ strict = false ∧ shape = none := by
  cases found with
  | ok s => simp [shapeOrUnknown, result_pure]
  | error e =>
    cases strict with
    | true => simp [shapeOrUnknown, fail]
    | false =>
      have hnone : (shapeOrUnknown false output (.error e)).result = .ok none := rfl
      rw [hnone]
      simp [eq_comm]

theorem shapeOrUnknown_eq_error {strict : Bool} {output : String}
    {found : Except Error (Option Extents)} {e : Error} :
    (shapeOrUnknown strict output found).result = .error e ↔
      found = .error e ∧ strict = true := by
  cases found with
  | ok s => simp [shapeOrUnknown, result_pure]
  | error e' =>
    cases strict with
    | true => simp [shapeOrUnknown, fail]
    | false =>
      have hnone : (shapeOrUnknown false output (.error e')).result = .ok none := rfl
      rw [hnone]
      simp

end Attempt

/-! ### Attempts side by side -/

/-- Attempts that succeed with related results, or fail with related errors. -/
def AgreeUpTo {α β : Type} (errors : Error → Error → Prop) (related : α → β → Prop) :
    Except Error α → Except Error β → Prop
  | .ok a, .ok b => related a b
  | .error e, .error e' => errors e e'
  | _, _ => False

namespace AgreeUpTo

variable {α α' β β' : Type} {errors : Error → Error → Prop} {related : α → β → Prop}
  {related' : α' → β' → Prop}

theorem ok {a : α} {b : β} (h : related a b) : AgreeUpTo errors related (.ok a) (.ok b) :=
  h

theorem error {e e' : Error} (h : errors e e') : AgreeUpTo errors related (.error e) (.error e') :=
  h

/-- Both succeed, or both fail. -/
theorem cases {x : Except Error α} {y : Except Error β} (h : AgreeUpTo errors related x y) :
    (∃ a b, x = .ok a ∧ y = .ok b ∧ related a b) ∨
      ∃ e e', x = .error e ∧ y = .error e' ∧ errors e e' := by
  cases x with
  | ok a =>
    cases y with
    | ok b => exact .inl ⟨a, b, rfl, rfl, h⟩
    | error e => exact h.elim
  | error e =>
    cases y with
    | ok b => exact h.elim
    | error e' => exact .inr ⟨e, e', rfl, rfl, h⟩

/-- The same attempt twice. -/
theorem same (hrefl : ∀ e, errors e e) (x : Except Error α) : AgreeUpTo errors Eq x x := by
  cases x with
  | ok a => exact ok rfl
  | error e => exact error (hrefl e)

theorem symm {errors' : Error → Error → Prop} {related' : β → α → Prop} {x : Except Error α}
    {y : Except Error β} (h : AgreeUpTo errors related x y)
    (herrors : ∀ e e', errors e e' → errors' e' e) (hrelated : ∀ a b, related a b → related' b a) :
    AgreeUpTo errors' related' y x := by
  rcases h.cases with ⟨a, b, rfl, rfl, hab⟩ | ⟨e, e', rfl, rfl, he⟩
  · exact hrelated a b hab
  · exact herrors e e' he

theorem imp {more : α → β → Prop} {x : Except Error α} {y : Except Error β}
    (h : AgreeUpTo errors related x y) (himp : ∀ a b, x = .ok a → related a b → more a b) :
    AgreeUpTo errors more x y := by
  rcases h.cases with ⟨a, b, rfl, rfl, hab⟩ | ⟨e, e', rfl, rfl, he⟩
  · exact himp a b rfl hab
  · exact he

theorem bind {x : Except Error α} {y : Except Error β} {f : α → Except Error α'}
    {g : β → Except Error β'} (h : AgreeUpTo errors related x y)
    (hf : ∀ a b, related a b → AgreeUpTo errors related' (f a) (g b)) :
    AgreeUpTo errors related' (x.bind f) (y.bind g) := by
  rcases h.cases with ⟨a, b, rfl, rfl, hab⟩ | ⟨e, e', rfl, rfl, he⟩
  · exact hf a b hab
  · exact he

theorem andThen {x : Attempt α} {y : Attempt β} {f : α → Attempt α'} {g : β → Attempt β'}
    (h : AgreeUpTo errors related x.result y.result)
    (hf : ∀ a b, related a b → AgreeUpTo errors related' (f a).result (g b).result) :
    AgreeUpTo errors related' (x >>= f).result (y >>= g).result := by
  rw [Attempt.result_bind, Attempt.result_bind]
  exact bind h hf

theorem map {x : Except Error α} {y : Except Error β} {f : α → α'} {g : β → β'}
    (h : AgreeUpTo errors related x y) (hf : ∀ a b, related a b → related' (f a) (g b)) :
    AgreeUpTo errors related' (x.map f) (y.map g) := by
  rcases h.cases with ⟨a, b, rfl, rfl, hab⟩ | ⟨e, e', rfl, rfl, he⟩
  · exact hf a b hab
  · exact he

/-- What comes first is the same attempt. -/
theorem andThen_same (hrefl : ∀ e, errors e e) {x : Attempt α} {f : α → Attempt α'}
    {g : α → Attempt β'} (hf : ∀ a, AgreeUpTo errors related' (f a).result (g a).result) :
    AgreeUpTo errors related' (x >>= f).result (x >>= g).result :=
  andThen (same hrefl x.result) fun a _ hab => hab ▸ hf a

end AgreeUpTo

/-- Two errors of checks on arguments, whatever they say. -/
def Error.BothValidation (e e' : Error) : Prop :=
  e.category = .validation ∧ e'.category = .validation

/-! ### Work on a graph -/

namespace Build

/-- Work that succeeds on a graph, with its result and the graph that it leaves. -/
def Yields (x : Build α) (graph : Graph) (a : α) (after : Graph) : Prop :=
  (x graph).result = .ok a ∧ (x graph).graph = after

/-- Work that fails on a graph, with its error and the graph that it leaves. -/
def Fails (x : Build α) (graph : Graph) (e : Error) (after : Graph) : Prop :=
  (x graph).result = .error e ∧ (x graph).graph = after

theorem Yields.unique {x : Build α} {graph after after' : Graph} {a a' : α}
    (h : x.Yields graph a after) (h' : x.Yields graph a' after') : a = a' ∧ after = after' :=
  ⟨Except.ok.inj (h.1.symm.trans h'.1), h.2.symm.trans h'.2⟩

theorem Fails.unique {x : Build α} {graph after after' : Graph} {e e' : Error}
    (h : x.Fails graph e after) (h' : x.Fails graph e' after') : e = e' ∧ after = after' :=
  ⟨Except.error.inj (h.1.symm.trans h'.1), h.2.symm.trans h'.2⟩

theorem Yields.not_fails {x : Build α} {graph after after' : Graph} {a : α} {e : Error}
    (h : x.Yields graph a after) : ¬ x.Fails graph e after' := by
  intro hfails
  have hresult := h.1.symm.trans hfails.1
  cases hresult

theorem bind_of_ok {x : Build α} {f : α → Build β} {graph : Graph} {a : α}
    (h : (x graph).result = .ok a) :
    ((x >>= f) graph).result = (f a (x graph).graph).result ∧
      ((x >>= f) graph).graph = (f a (x graph).graph).graph := by
  show (andThen x f graph).result = _ ∧ (andThen x f graph).graph = _
  simp [andThen, h]

theorem bind_of_error {x : Build α} {f : α → Build β} {graph : Graph} {e : Error}
    (h : (x graph).result = .error e) :
    ((x >>= f) graph).result = .error e ∧ ((x >>= f) graph).graph = (x graph).graph := by
  show (andThen x f graph).result = _ ∧ (andThen x f graph).graph = _
  simp [andThen, h]

/-- What follows work matters only for the result and the graph that the work has. -/
theorem bind_congr {x : Build α} {f g : α → Build β}
    (h : ∀ graph a, (x graph).result = .ok a → f a (x graph).graph = g a (x graph).graph) :
    x >>= f = x >>= g := by
  funext graph
  show andThen x f graph = andThen x g graph
  unfold andThen
  cases hx : (x graph).result with
  | error e => rfl
  | ok a => simp only [h graph a hx]

theorem yields_bind {x : Build α} {f : α → Build β} {graph after : Graph} {b : β} :
    (x >>= f).Yields graph b after ↔
      ∃ a mid, x.Yields graph a mid ∧ (f a).Yields mid b after := by
  constructor
  · intro h
    obtain ⟨hresult, hgraph⟩ := h
    cases hx : (x graph).result with
    | error e =>
      rw [(bind_of_error hx).1] at hresult
      cases hresult
    | ok a =>
      obtain ⟨h1, h2⟩ := bind_of_ok (f := f) hx
      exact ⟨a, (x graph).graph, ⟨hx, rfl⟩, h1 ▸ hresult, h2 ▸ hgraph⟩
  · intro h
    obtain ⟨a, mid, ⟨hx, rfl⟩, hresult, hgraph⟩ := h
    obtain ⟨h1, h2⟩ := bind_of_ok (f := f) hx
    exact ⟨h1.trans hresult, h2.trans hgraph⟩

theorem fails_bind {x : Build α} {f : α → Build β} {graph after : Graph} {e : Error} :
    (x >>= f).Fails graph e after ↔
      x.Fails graph e after ∨ ∃ a mid, x.Yields graph a mid ∧ (f a).Fails mid e after := by
  cases hx : (x graph).result with
  | error e' =>
    obtain ⟨h1, h2⟩ := bind_of_error (f := f) hx
    unfold Fails Yields
    rw [h1, h2, hx]
    simp
  | ok a =>
    obtain ⟨h1, h2⟩ := bind_of_ok (f := f) hx
    unfold Fails Yields
    rw [h1, h2, hx]
    simp

theorem yields_query {f : Graph → Attempt α} {graph after : Graph} {a : α} :
    (query f).Yields graph a after ↔ (f graph).result = .ok a ∧ graph = after :=
  Iff.rfl

theorem yields_change {f : Graph → Attempt (α × Graph)} {graph after : Graph} {a : α} :
    (change f).Yields graph a after ↔ (f graph).result = .ok (a, after) := by
  unfold Yields change
  cases h : (f graph).result with
  | error e => simp
  | ok r => simp [Prod.ext_iff]

theorem fails_change {f : Graph → Attempt (α × Graph)} {graph after : Graph} {e : Error} :
    (change f).Fails graph e after ↔ (f graph).result = .error e ∧ graph = after := by
  unfold Fails change
  cases h : (f graph).result with
  | error e' => simp
  | ok r => simp

/-- **Sequences of work.** A relation between the graph before and the graph after that can be
chained holds of work in sequence if it holds of each part, whether the parts succeed or not. -/
theorem graph_bind {related : Graph → Graph → Prop}
    (htrans : ∀ {a b c}, related a b → related b c → related a c)
    {x : Build α} {f : α → Build β} {graph : Graph} (hx : related graph (x graph).graph)
    (hf : ∀ a mid, related mid (f a mid).graph) : related graph ((x >>= f) graph).graph := by
  cases h : (x graph).result with
  | error e => exact (bind_of_error (f := f) h).2 ▸ hx
  | ok a => exact (bind_of_ok (f := f) h).2 ▸ htrans hx (hf a _)

theorem change_congr {f g : Graph → Attempt (α × Graph)} {graph : Graph} (h : f graph = g graph) :
    change f graph = change g graph := by
  unfold change
  rw [h]

theorem graph_change (f : Graph → Attempt (α × Graph)) (graph : Graph) :
    ((change f graph).graph = graph ∧ ∃ e, (f graph).result = .error e) ∨
      ∃ a, (f graph).result = .ok (a, (change f graph).graph) := by
  unfold change
  cases h : (f graph).result with
  | error e => exact .inl ⟨rfl, e, rfl⟩
  | ok r => exact .inr ⟨r.1, rfl⟩

end Build

/-! ### Reports -/

/-- An attempt reports an error if it fails with it or records it as the reason why a shape is left
open. -/
def Attempt.Reports (x : Attempt α) (e : Error) : Prop :=
  x.result = .error e ∨ ∃ output, .shapeUnknown output e ∈ x.log

/-- Work on a graph reports an error if it fails with it or records it as the reason why a shape is
left open. -/
def Build.Reports (x : Build α) (graph : Graph) (e : Error) : Prop :=
  (x graph).result = .error e ∨ ∃ output, .shapeUnknown output e ∈ (x graph).log

namespace Attempt

variable {e : Error}

theorem reports_bind {x : Attempt α} {f : α → Attempt β} :
    (x >>= f).Reports e ↔ x.Reports e ∨ ∃ a, x.result = .ok a ∧ (f a).Reports e := by
  show (andThen x f).Reports e ↔ _
  cases hx : x.result with
  | error e' => simp [Reports, andThen, hx]
  | ok a => simp [Reports, andThen, hx, exists_or, or_left_comm]

theorem reports_lift {x : Except Error α} : (liftM x : Attempt α).Reports e ↔ x = .error e := by
  simp [Reports, liftM, monadLift, MonadLift.monadLift, ofExcept]

theorem not_reports_pure (a : α) : ¬ (pure a : Attempt α).Reports e := by
  simp [Reports, pure]

theorem reports_fail {e' : Error} : (fail e' : Attempt α).Reports e ↔ e' = e := by
  simp [Reports, fail]

theorem reports_record {entry : LogRecord} :
    (record entry).Reports e ↔ ∃ output, entry = .shapeUnknown output e := by
  simp [Reports, record, eq_comm]

/-- Whether a shape must be found or may be left open, the reason is reported. -/
theorem reports_shapeOrUnknown {strict : Bool} {output : String}
    {found : Except Error (Option Extents)} :
    (shapeOrUnknown strict output found).Reports e ↔ found = .error e := by
  cases found with
  | ok shape => simp [shapeOrUnknown, not_reports_pure]
  | error e' =>
    cases strict with
    | true => simp [shapeOrUnknown, reports_fail]
    | false => simp [shapeOrUnknown, reports_bind, reports_record, not_reports_pure]

end Attempt

namespace Build

variable {graph : Graph} {e : Error}

/-- **Work in sequence** reports what its parts report. -/
theorem reports_bind {x : Build α} {f : α → Build β} :
    (x >>= f).Reports graph e ↔
      x.Reports graph e ∨ ∃ a, (x graph).result = .ok a ∧ (f a).Reports (x graph).graph e := by
  show (andThen x f).Reports graph e ↔ _
  cases hx : (x graph).result with
  | error e' => simp [Reports, andThen, hx]
  | ok a => simp [Reports, andThen, hx, exists_or, or_left_comm]

theorem reports_query {f : Graph → Attempt α} :
    (query f).Reports graph e ↔ (f graph).Reports e :=
  Iff.rfl

theorem reports_change {f : Graph → Attempt (α × Graph)} :
    (change f).Reports graph e ↔ (f graph).Reports e := by
  unfold Reports Attempt.Reports change
  cases (f graph).result <;> simp

end Build

end ComputeGraph
