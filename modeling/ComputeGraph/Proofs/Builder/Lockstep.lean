import ComputeGraph.Proofs.Builder.Comparison
import ComputeGraph.Proofs.Builder.Correspondence

/-!
# Two builders in lockstep

A call that refers to corresponding nodes has corresponding effects on graphs that correspond: both
builders succeed with nodes that are the same up to the numbers of nodes, or both fail with errors
of the same category. This holds of every call that is not folded.

* `Correspondence.Carries` — work that leads from graphs that correspond to graphs that correspond;
* `Correspondence.comparison` — what is known of single nodes;
* **`Correspondence.performStages_carries`** — every call that is not folded.
-/

namespace ComputeGraph

/-! ### Builders that fold or do not -/

/-- The standard operators under options that fold functions of literals or do not. -/
def Options.foldingSettings (options : Options) (fold : Bool) : Settings :=
  { options := { options with foldConstants := fold } }

section Names

variable {options : Options} (hstem : options.namePrefix = none) (fold : Bool) (request : Request)
  (graph : Graph)

include hstem

/-- Builders without a prefix for names leave requests as they are. -/
theorem Request.named_foldingSettings :
    request.named (options.foldingSettings fold).options graph = request :=
  named_eq_self hstem request graph

theorem Settings.add_eq_change :
    (options.foldingSettings fold).add request graph =
      Build.change (fun graph => Registry.standard.append options.validateShapes graph request)
        graph := by
  refine Build.change_congr ?_
  rw [Request.named_foldingSettings hstem]
  rfl

end Names

namespace Correspondence

variable {refers : String → Bool} {policy : DomainPolicy} {world : Correspondence refers policy}

/-! ### Work on two graphs -/

section Work

variable {α β : Type} {related : Correspondence refers policy → α → β → Prop}

/-- What is done to the two graphs leaves graphs that correspond, and agrees in its result. -/
def Carries (world : Correspondence refers policy)
    (related : Correspondence refers policy → α → β → Prop) (plain : Outcome α)
    (folding : Outcome β) : Prop :=
  ∃ after, world.Extends after ∧ after.plain = plain.graph ∧ after.folding = folding.graph ∧
    Agree (related after) plain.result folding.result

/-- The plain graph on the left and the folding one on the right. -/
def sideBySide (refers : String → Bool) (policy : DomainPolicy) :
    SideBySide (Correspondence refers policy) where
  left := plain
  right := folding
  Extends := Extends
  refl := .refl
  trans := .trans
  errors := Error.Similar
  errors_refl := Error.Similar.refl

theorem carries_iff {plain : Outcome α} {folding : Outcome β} :
    world.Carries related plain folding ↔
      (sideBySide refers policy).Carries world related plain folding := by
  unfold Carries
  simp only [Agree.iff_agreeUpTo]
  rfl

theorem Carries.imp {more : Correspondence refers policy → α → β → Prop} {plain : Outcome α}
    {folding : Outcome β} (h : world.Carries related plain folding)
    (himp : ∀ after a b, related after a b → more after a b) :
    world.Carries more plain folding :=
  carries_iff.2 ((carries_iff.1 h).imp himp)

/-- Work that fails with both. -/
theorem carries_of_fails {after : Correspondence refers policy} {x : Build α} {y : Build β}
    {e e' : Error} (hextends : world.Extends after) (hx : x.Fails world.plain e after.plain)
    (hy : y.Fails world.folding e' after.folding) (h : e.category = e'.category) :
    world.Carries related (x world.plain) (y world.folding) :=
  carries_iff.2 (SideBySide.carries_of_fails (s := sideBySide refers policy) hextends hx hy h)

/-- Work that succeeds with both. -/
theorem carries_of_yields {after : Correspondence refers policy} {x : Build α} {y : Build β}
    {a : α} {b : β} (hextends : world.Extends after) (hx : x.Yields world.plain a after.plain)
    (hy : y.Yields world.folding b after.folding) (h : related after a b) :
    world.Carries related (x world.plain) (y world.folding) :=
  carries_iff.2 (SideBySide.carries_of_yields (s := sideBySide refers policy) hextends hx hy h)

end Work

/-! ### What is known of single nodes -/

section Nodes

variable {i j : NodeId}

theorem get_agree (h : world.At i j) :
    AgreeUpTo Error.Similar
      (fun p q => p.hostShape = q.hostShape ∧ (p.kind = .dynamicAxis ↔ q.kind = .dynamicAxis))
      (world.plain.get i) (world.folding.get j) := by
  obtain ⟨p, q, hp, hq, -, hshape, hkind⟩ := exists_of_at h
  rw [Graph.get_eq_ok.2 hp, Graph.get_eq_ok.2 hq]
  exact .ok ⟨hshape, hkind⟩

theorem knownShape_agree (h : world.At i j) (kind : Kind) :
    AgreeUpTo Error.Similar Eq (world.plain.knownShape i kind)
      (world.folding.knownShape j kind) := by
  refine (get_agree h).bind fun p q hpq => ?_
  obtain ⟨hshape, -⟩ := hpq
  rw [hshape]
  cases q.hostShape with
  | some shape => exact .ok rfl
  | none => exact .error rfl

theorem requireDynamicAxis_agree (h : world.At i j) :
    AgreeUpTo Error.Similar Eq (world.plain.requireDynamicAxis i)
      (world.folding.requireDynamicAxis j) := by
  refine (get_agree h).bind fun p q hpq => ?_
  obtain ⟨-, hkind⟩ := hpq
  by_cases hp : p.kind = .dynamicAxis
  · rw [if_pos hp, if_pos (hkind.1 hp)]
    exact .ok rfl
  · rw [if_neg hp, if_neg fun hq => hp (hkind.2 hq)]
    exact .error rfl

/-- The same names are free. -/
theorem sameUse (world : Correspondence refers policy) (name : Option String) :
    SameUse Error.Similar world.plain world.folding name name := by
  rcases world.plain.isFree_or_used name with hfree | ⟨n, hn, hused⟩
  · exact .inl ⟨hfree, (world.isFree_iff name).1 hfree⟩
  · exact .inr ⟨n, n, hn, hn, hused, world.hasName_eq n ▸ hused, rfl⟩

end Nodes

/-! ### Calls -/

variable {options : Options}

/-- Without a prefix for names, builders of which one folds and one does not can be compared on
graphs that correspond. -/
def comparison (hstem : options.namePrefix = none) (hrefers : refers "dynamicAxis" = true) :
    Comparison refers (Correspondence refers options.domainPolicy) where
  toSideBySide := sideBySide refers options.domainPolicy
  leftSettings := options.foldingSettings false
  rightSettings := options.foldingSettings true
  registry_eq := rfl
  strict_eq := rfl
  refers_axis := hrefers
  Ref := At
  At := At
  Made := Alike
  Named := fun _ => True
  ref_mono := fun hextends hat => hextends.at_of_at hat
  at_mono := fun hextends hat => hextends.at_of_at hat
  at_of_ref := fun hat => hat
  at_of_made := by
    intro world i j shape hmade _
    obtain ⟨p, q, -, -, hat, -⟩ := hmade
    exact hat
  named_none := trivial
  get_agree := fun hat => (get_agree hat).imp fun _ _ _ h => h.1
  shape_agree := knownShape_agree
  axis_agree := requireDynamicAxis_agree
  names_agree := by
    intro world r r' h _
    rw [Request.named_foldingSettings hstem, Request.named_foldingSettings hstem, h.name_eq]
    exact world.sameUse r'.name
  grow := by
    intro world r r' h _ shape
    have halike : (r.toNode world.plain shape).Alike refers world.At
        (r'.toNode world.folding shape) :=
      ⟨h.kind_eq, h.inputs, h.attributes, h.name_eq, rfl⟩
    have hextends := extends_snoc (.inl halike)
    rw [Request.named_foldingSettings hstem, Request.named_foldingSettings hstem]
    exact ⟨world.snoc _ _ (.inl halike), hextends, rfl, rfl, _, _, Graph.node?_snoc_size _ _,
      Graph.node?_snoc_size _ _, at_snoc _, halike.mono fun _ _ => hextends.at_of_at⟩

/-- **A call that is not folded** and refers to corresponding nodes makes corresponding nodes that
are the same up to the numbers of nodes, or fails with errors of the same category. -/
theorem performStages_carries {world : Correspondence refers options.domainPolicy}
    (hstem : options.namePrefix = none) (hrefers : refers "dynamicAxis" = true)
    {f g : NodeId → NodeId} {call : Call} (h : ∀ i ∈ call.references refers, world.At (f i) (g i)) :
    world.Carries Alike
      ((options.foldingSettings false).performStages (call.rename refers f) world.plain)
      ((options.foldingSettings true).performStages (call.rename refers g) world.folding) :=
  carries_iff.2 ((comparison hstem hrefers).performStages_carries h trivial)

end Correspondence

end ComputeGraph
