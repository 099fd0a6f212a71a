import ComputeGraph.Proofs.Builder.Effect
import ComputeGraph.Proofs.Graph.WellFormed
import ComputeGraph.Proofs.Shape.Product

/-!
# Products on both sides

The engine gets the operands of a product exchanged and reversed, and an output rank that says how
many of its axes meet. The host works out the shape from its own side, and checks the output rank a
second time there. That second check never fails in a call, because the translation of the rank has
failed before.

* `requestTimes_reports`, `Settings.performBinary_reports` — products do not report the second
  check;
* **`product_agrees_with_engine`** — both sides of a product.
-/

namespace ComputeGraph

/-! ### Products do not report the second check -/

/-- The error of the second check of an output rank. -/
def Error.IsProductRank : Error → Prop
  | .productRankOutOfRange .. => True
  | _ => False

theorem Error.IsRefusal.not_isProductRank {e : Error} (h : e.IsRefusal) : ¬ e.IsProductRank := by
  intro hrank
  cases e <;> first | exact hrank | exact h

theorem requestInitialised_reports {value : Tensor} {multiplier : Float} {name : Option String}
    {e : Error} (h : (requestInitialised value multiplier name).Reports e) :
    e = .emptyValue value.extents := by
  unfold requestInitialised at h
  rcases Attempt.reports_bind.1 h with h | ⟨literal, -, h⟩
  · have herror := Attempt.reports_lift.1 h
    exact (Tensor.literal_eq_error.1 herror).2
  · rcases Attempt.reports_bind.1 h with h | ⟨⟨⟩, -, h⟩
    · obtain ⟨output, h⟩ := Attempt.reports_record.1 h
      cases h
    · exact (Attempt.not_reports_pure _ h).elim

/-- **The request for a product** does not report the second check: the rank is translated first. -/
theorem requestTimes_reports {strict : Bool} {graph : Graph} {outputRank : Nat}
    {left right : NodeId} {name : Option String} {e : Error}
    (h : (requestTimes strict graph outputRank left right name).Reports e) :
    ¬ e.IsProductRank := by
  unfold requestTimes at h
  rcases Attempt.reports_bind.1 h with h | ⟨leftShape, -, h⟩
  · rcases except_bind_eq_error.1 (Attempt.reports_lift.1 h) with h | ⟨node, -, h⟩
    · obtain ⟨-, rfl⟩ := Graph.get_eq_error.1 h
      exact id
    · split at h
      · cases h
      · cases h
        exact id
  rcases Attempt.reports_bind.1 h with h | ⟨engineRank, hrank, h⟩
  · have herror := Attempt.reports_lift.1 h
    unfold engineOutputRank at herror
    split at herror
    · cases herror
      exact id
    · cases herror
  rcases Attempt.reports_bind.1 h with h | ⟨rightNode, -, h⟩
  · obtain ⟨-, rfl⟩ := Graph.get_eq_error.1 (Attempt.reports_lift.1 h)
    exact id
  rcases Attempt.reports_bind.1 h with h | ⟨shape, -, h⟩
  · have herror := Attempt.reports_shapeOrUnknown.1 h
    intro hproduct
    unfold productShape at herror
    split at herror
    · cases herror
    · rename_i rightShape
      cases e with
      | productRankOutOfRange leftRank rank =>
        obtain ⟨e, he⟩ :=
          Extents.product_eq_rangeError.1 ⟨leftRank, rank, except_map_eq_error.1 herror⟩
        cases hrank.symm.trans he
      | _ => exact hproduct
  · exact (Attempt.not_reports_pure _ h).elim

namespace Settings

variable {settings : Settings} {graph : Graph} {e : Error}

theorem add_reports {request : Request} (h : (settings.add request).Reports graph e) :
    ¬ e.IsProductRank :=
  (Registry.isRefusal_of_reports (Build.reports_change.1 h)).not_isProductRank

theorem constant_reports {value : Tensor} {name : Option String}
    (h : (settings.constant value name).Reports graph e) : ¬ e.IsProductRank := by
  rcases Build.reports_bind.1 h with h | ⟨request, -, h⟩
  · rcases Attempt.reports_bind.1 (Build.reports_query.1 h) with h | ⟨⟨⟩, -, h⟩
    · cases Attempt.reports_lift.1 h
    · obtain rfl := requestInitialised_reports h
      exact id
  · exact add_reports h

theorem resolve_reports {x : Operand} (h : (settings.resolve x).Reports graph e) :
    ¬ e.IsProductRank := by
  cases x with
  | node id =>
    have herror := Attempt.reports_lift.1 (Build.reports_query.1 h)
    obtain ⟨-, rfl⟩ := Graph.get_eq_error.1 (except_map_eq_error.1 herror)
    exact fun hrank => hrank
  | literal value => exact constant_reports h

/-- **A product** does not report the second check. -/
theorem performBinary_reports {outputRank : Nat} {x y : Operand} {name : Option String}
    (h : (settings.performBinary (.times outputRank) x y name).Reports graph e) :
    ¬ e.IsProductRank := by
  rcases Build.reports_bind.1 h with h | ⟨left, -, h⟩
  · exact resolve_reports h
  rcases Build.reports_bind.1 h with h | ⟨right, -, h⟩
  · exact resolve_reports h
  rcases Build.reports_bind.1 h with h | ⟨request, -, h⟩
  · exact requestTimes_reports (Build.reports_query.1 h)
  · exact add_reports h

end Settings

/-! ### Both sides -/

theorem engineOutputRank_involutive {rank outputRank : Nat} (hpos : 1 ≤ outputRank)
    (hle : outputRank ≤ rank) :
    ∃ engineRank, engineOutputRank rank outputRank = .ok engineRank ∧ 1 ≤ engineRank ∧
      engineRank ≤ rank ∧ engineOutputRank rank engineRank = .ok outputRank := by
  refine ⟨rank + 1 - outputRank, engineOutputRank_eq_ok.2 ⟨hpos, hle, rfl⟩, by omega, by omega, ?_⟩
  exact engineOutputRank_eq_ok.2 ⟨by omega, by omega, by omega⟩

/-- **Both sides of a product.** The host finds the shape of a product iff the engine's rank exists,
the right operand has one axis less than that rank says, these last axes of the reversed right
operand are the first ones of the reversed left operand, and the other axes in a row are the
reversed shape. The translation of ranks is its own inverse, the contracted axes count in both
operands and not in the shape, and a product accepts the output ranks that have a translation; so no
call for a product reports the output rank that the product refuses. -/
theorem product_agrees_with_engine (left right : Extents) (outputRank : Nat) :
    (∀ shape, left.product right outputRank = .ok shape ↔
      ∃ engineRank, engineOutputRank left.length outputRank = .ok engineRank ∧
        engineRank - 1 ≤ right.length ∧
        right.reverse.drop (right.length - (engineRank - 1)) =
          left.reverse.take (engineRank - 1) ∧
        shape.reverse = right.reverse.take (right.length - (engineRank - 1)) ++
          left.reverse.drop (engineRank - 1)) ∧
    (1 ≤ outputRank → outputRank ≤ left.length →
      ∃ engineRank, engineOutputRank left.length outputRank = .ok engineRank ∧ 1 ≤ engineRank ∧
        engineRank ≤ left.length ∧
        engineOutputRank left.length engineRank = .ok outputRank) ∧
    (∀ shape, left.product right outputRank = .ok shape →
      shape.elementCount *
          (Extents.elementCount (left.drop outputRank) *
            Extents.elementCount (left.drop outputRank)) =
        left.elementCount * right.elementCount) ∧
    ((∃ leftRank rank,
        left.product right outputRank = .error (.productRankOutOfRange leftRank rank)) ↔
      ∃ e, engineOutputRank left.length outputRank = .error e) ∧
    ∀ (settings : Settings) (graph : Graph) (x y : Operand) (name : Option String)
      (leftRank rank : Nat),
      ¬ (settings.perform (.binary (.times outputRank) x y name)).Reports graph
        (.productRankOutOfRange leftRank rank) := by
  refine ⟨fun shape => ?_, engineOutputRank_involutive, fun shape h => ?_,
    Extents.product_eq_rangeError, fun settings graph x y name leftRank rank h => ?_⟩
  · rw [Extents.product_eq_ok, ← Extents.contracts_reverse, Extents.contracts_iff,
      List.length_reverse, List.length_reverse]
    constructor
    · intro h
      obtain ⟨hpos, hle, hright, -, hshared, hshape⟩ := h
      have hcount : left.length + 1 - outputRank - 1 = left.length - outputRank := by omega
      refine ⟨_, engineOutputRank_eq_ok.2 ⟨hpos, hle, rfl⟩, ?_⟩
      rw [hcount]
      exact ⟨hright, hshared, hshape⟩
    · intro h
      obtain ⟨engineRank, hrank, hright, hshared, hshape⟩ := h
      obtain ⟨hpos, hle, rfl⟩ := engineOutputRank_eq_ok.1 hrank
      have hcount : left.length + 1 - outputRank - 1 = left.length - outputRank := by omega
      rw [hcount] at hright hshared hshape
      exact ⟨hpos, hle, hright, Nat.sub_le _ _, hshared, hshape⟩
  · obtain ⟨-, hle, hcontracts⟩ := Extents.product_eq_ok.1 h
    have hcount := hcontracts.elementCount_eq
    obtain ⟨-, -, hshared, -⟩ := Extents.contracts_iff.1 hcontracts
    have hcut : left.length - (left.length - outputRank) = outputRank := by omega
    rw [← hshared, hcut] at hcount
    exact hcount
  · exact Settings.performBinary_reports h trivial

/-- A product of three axes with two that contracts one: the engine gets the rank 3 - 2 + 1. -/
theorem product_agrees_with_engine_matrix :
    Extents.product [2, 3, 4] [4, 5] 2 = .ok [2, 3, 5] ∧
      (∃ engineRank, engineOutputRank 3 2 = .ok engineRank ∧
        engineRank - 1 ≤ 2 ∧ ([5, 4] : Extents).drop (2 - (engineRank - 1)) =
          ([4, 3, 2] : Extents).take (engineRank - 1)) ∧
      (∃ engineRank, engineOutputRank 3 2 = .ok engineRank ∧ 1 ≤ engineRank ∧ engineRank ≤ 3 ∧
        engineOutputRank 3 engineRank = .ok 2) ∧
      Extents.elementCount [2, 3, 5] * (4 * 4) = 24 * 20 := by
  obtain ⟨hshape, hinverse, hcount, -, -⟩ := product_agrees_with_engine [2, 3, 4] [4, 5] 2
  have hok : Extents.product [2, 3, 4] [4, 5] 2 = .ok [2, 3, 5] := rfl
  obtain ⟨engineRank, hrank, hle, hshared, -⟩ := (hshape _).1 hok
  exact ⟨hok, ⟨engineRank, hrank, hle, hshared⟩, hinverse (by decide) (by decide), hcount _ hok⟩

end ComputeGraph
