import ComputeGraph.Proofs.Builder.CallerNames
import Mathlib.Order.Bounds.Basic

/-!
# Names that builders generate

With a prefix for names a node to which the caller gives no name is named by the prefix and a
number, the least one from its id on whose name no node has. The search goes up one number at a
time and has no bound of its own. It ends because it passes over names in use only, of which there
are as many as named nodes, and because different numbers make different names.

* `Searches` — the search, one number at a time;
* `Graph.GeneratesFor` — the node gets the name that the search finds, within as many steps as
  there are named nodes;
* **`Graph.WellFormed.generatesFor`** — fresh names are those that the search finds;
* **`Settings.perform_names`** — the names of all nodes that a call appends;
* **`names_generated`** — what follows for every run of a builder with a prefix.
-/

namespace ComputeGraph

/-! ### The search -/

/-- The search for a free number goes up from the first number by some steps, each of them over a
number whose name is taken, and ends at the last number. -/
inductive Searches (taken : String → Bool) (stem : String) : Nat → Nat → Nat → Prop
  | found {n : Nat} (h : taken (numbered stem n) = false) : Searches taken stem n 0 n
  | next {n steps m : Nat} (h : taken (numbered stem n) = true)
      (rest : Searches taken stem (n + 1) steps m) : Searches taken stem n (steps + 1) m

section Search

variable {taken : String → Bool} {stem : String}

/-- A search ends at the least number that is free. -/
theorem Searches.isLeast {n steps m : Nat} (h : Searches taken stem n steps m) :
    IsLeast {k | n ≤ k ∧ taken (numbered stem k) = false} m := by
  induction h with
  | found hfree => exact ⟨⟨Nat.le_refl _, hfree⟩, fun _ hk => hk.1⟩
  | @next n steps m htaken rest ih =>
    obtain ⟨⟨hle, hfree⟩, hlower⟩ := ih
    refine ⟨⟨Nat.le_of_succ_le hle, hfree⟩, fun k hk => ?_⟩
    obtain ⟨hge, hkfree⟩ := hk
    have hne : n ≠ k := by
      rintro rfl
      rw [htaken] at hkfree
      cases hkfree
    exact hlower ⟨Nat.lt_of_le_of_ne hge hne, hkfree⟩

/-- The bounded search is the search, as long as it ends at a free number. -/
theorem searches_leastFree {budget n : Nat}
    (hfree : taken (numbered stem (leastFree taken stem budget n)) = false) :
    ∃ steps ≤ budget, Searches taken stem n steps (leastFree taken stem budget n) := by
  induction budget generalizing n with
  | zero => exact ⟨0, Nat.le_refl 0, .found hfree⟩
  | succ budget ih =>
    unfold leastFree at hfree ⊢
    split
    · rename_i htaken
      rw [if_pos htaken] at hfree
      obtain ⟨steps, hle, hsearch⟩ := ih hfree
      exact ⟨steps + 1, Nat.succ_le_succ hle, .next htaken hsearch⟩
    · rename_i hnot
      exact ⟨0, Nat.zero_le _, .found (Bool.eq_false_iff.2 hnot)⟩

end Search

/-! ### Generated names -/

namespace Graph

/-- The node is named by the stem and the number that the search finds from the id of the node on.
The search ends within as many steps as there are named nodes, and the number is the least one
whose name no node has. -/
def GeneratesFor (graph : Graph) (stem : String) (node : Node) : Prop :=
  ∃ steps m, node.name = some (numbered stem m) ∧
    Searches (fun name => (graph.find? name).isSome) stem node.id steps m ∧
    steps ≤ graph.nodes.countP (fun other => other.name.isSome) ∧
    IsLeast {k | node.id ≤ k ∧ ∀ other ∈ graph.nodes, other.name ≠ some (numbered stem k)} m

namespace WellFormed

variable {graph : Graph}

/-- A name is in the index iff it finds a node. -/
theorem hasName_eq_isSome_find? (h : graph.WellFormed) :
    graph.hasName = fun name => (graph.find? name).isSome := by
  funext name
  cases hfind : graph.find? name with
  | none => exact h.hasName_eq_false.2 (h.find?_eq_none.1 hfind)
  | some node =>
    obtain ⟨id, hlookup, -⟩ := Option.bind_eq_some_iff.1 hfind
    exact Option.isSome_iff_exists.2 ⟨id, hlookup⟩

/-- The index has as many entries as there are named nodes. -/
theorem length_names (h : graph.WellFormed) :
    graph.names.length = graph.nodes.countP fun node => node.name.isSome := by
  rw [← List.length_map Prod.fst, h.keys_perm.length_eq, List.length_filterMap_eq_countP]

/-- **Fresh names** are those that the search finds. -/
theorem generatesFor (h : graph.WellFormed) {stem : String} {node : Node}
    (hid : node.id = graph.size) (hname : node.name = some (graph.freshName stem)) :
    graph.GeneratesFor stem node := by
  obtain ⟨steps, hle, hsearch⟩ := searches_leastFree (graph.hasName_freshName stem)
  refine ⟨steps, _, hname, ?_, h.length_names ▸ hle, ?_⟩
  · rw [hid, ← h.hasName_eq_isSome_find?]
    exact hsearch
  · have hleast := hsearch.isLeast
    simp only [h.hasName_eq_false] at hleast
    rw [hid]
    exact hleast

end WellFormed

end Graph

/-! ### The nodes of a call -/

/-- Work in sequence appends nodes of a kind if each part does, from well-formed graphs on. -/
theorem Build.grows_bind {α β : Type} {related : Graph → Node → Prop} {graph : Graph}
    (h : graph.WellFormed) {x : Build α} {f : α → Build β}
    (hx : graph.Grows related (x graph).graph)
    (hf : ∀ a (mid : Graph), mid.WellFormed → mid.Grows related (f a mid).graph) :
    graph.Grows related ((x >>= f) graph).graph := by
  cases hresult : (x graph).result with
  | error e => exact (bind_of_error (f := f) hresult).2 ▸ hx
  | ok a => exact (bind_of_ok (f := f) hresult).2 ▸ hx.trans (hf a _ (h.grows hx))

/-- The node is the one that a call returns, under the name that the call gives. -/
def Node.IsGiven (name : Option String) (result : Except Error NodeId) (node : Node) : Prop :=
  ∃ given, name = some given ∧ node.name = some given ∧ result = .ok node.id

namespace Settings

variable {settings : Settings} {stem : String} {graph : Graph}

/-- What a granted request names its node: as the request says, or by a generated name. -/
theorem names_of_grants (hstem : settings.options.namePrefix = some stem) (h : graph.WellFormed)
    {request : Request} {node : Node} (hgrants : settings.Grants graph request node) :
    (∃ given, request.name = some given ∧ node.name = some given) ∨
      graph.GeneratesFor stem node := by
  obtain ⟨operator, shapes, shape, -, -, -, -, hnode⟩ := eq_toNode_of_grants hgrants
  have hname : node.name = (request.named settings.options graph).name := by rw [hnode]
  cases hrequest : request.name with
  | some given =>
    rw [Request.named_of_name hrequest, hrequest] at hname
    exact .inl ⟨given, rfl, hname⟩
  | none =>
    have hfresh : (request.named settings.options graph).name = some (graph.freshName stem) := by
      unfold Request.named
      rw [hrequest, hstem]
    exact .inr (h.generatesFor (takes_over_of_grants hgrants).1 (hname.trans hfresh))

/-- A request that is made and granted names its node. -/
theorem ask_names (hstem : settings.options.namePrefix = some stem) (h : graph.WellFormed)
    {f : Graph → Attempt Request} {name : Option String}
    (hname : ∀ request, (f graph).result = .ok request → request.name = name) :
    graph.Grows (fun before node => node.IsGiven name (settings.ask f graph).result ∨
      before.GeneratesFor stem node) (settings.ask f graph).graph := by
  cases hrequest : (f graph).result with
  | error e =>
    rw [← ask_fails ⟨ask_of_error hrequest, rfl⟩]
    exact .refl
  | ok request =>
    have hgraph : (settings.ask f graph).graph = (settings.add request graph).graph :=
      (Build.bind_of_ok (x := Build.query f) (f := settings.add) hrequest).2
    rw [hgraph, ask_of_ok hrequest]
    rcases settings.add_cases request graph with hsame | ⟨node, hgrants, hpush⟩
    · rw [hsame]
      exact .refl
    · refine .single ?_ hpush
      refine (names_of_grants hstem h hgrants).imp_left fun hgiven => ?_
      obtain ⟨given, hgiven, hnode⟩ := hgiven
      have hreturned := (add_yields_iff.2 ⟨node, hgrants, rfl, rfl⟩).1
      exact ⟨given, (hname request hrequest).symm.trans hgiven, hnode, hreturned⟩

theorem constant_names (hstem : settings.options.namePrefix = some stem) (h : graph.WellFormed)
    (value : Tensor) (name : Option String) :
    graph.Grows (fun before node => node.IsGiven name (settings.constant value name graph).result ∨
      before.GeneratesFor stem node) (settings.constant value name graph).graph :=
  ask_names hstem h fun _ hrequest => by
    obtain ⟨-, hname, -⟩ := declaration_says hrequest
    exact hname

/-- An operand that becomes a node gets a generated name if it is a tensor. -/
theorem resolve_names (hstem : settings.options.namePrefix = some stem) (h : graph.WellFormed)
    (x : Operand) :
    graph.Grows (fun before node => before.GeneratesFor stem node)
      (settings.resolve x graph).graph := by
  cases x with
  | node id => exact .refl
  | literal value =>
    refine (constant_names hstem h value none).mono fun _ node hnode => ?_
    rcases hnode with ⟨given, hnone, -⟩ | hgenerated
    · cases hnone
    · exact hgenerated

theorem resolveAll_names (hstem : settings.options.namePrefix = some stem) (h : graph.WellFormed)
    (operands : List Operand) :
    graph.Grows (fun before node => before.GeneratesFor stem node)
      (settings.resolveAll operands graph).graph := by
  induction operands generalizing graph with
  | nil => exact .refl
  | cons x operands ih =>
    refine Build.grows_bind h (resolve_names hstem h x) fun _ mid hmid => ?_
    exact Build.grows_bind hmid (ih hmid) fun _ _ _ => .refl

theorem performStages_names (hstem : settings.options.namePrefix = some stem)
    (h : graph.WellFormed) (call : Call) :
    graph.Grows (fun before node =>
      node.IsGiven call.name (settings.performStages call graph).result ∨
        before.GeneratesFor stem node) (settings.performStages call graph).graph := by
  unfold performStages
  cases call.refusal? with
  | some e => exact .refl
  | none =>
    have hoperands := resolveAll_names hstem h call.operands
    cases hids : (settings.resolveAll call.operands graph).result with
    | error e =>
      dsimp only
      rw [(Build.bind_of_error hids).2]
      exact hoperands.mono fun _ _ => .inr
    | ok ids =>
      dsimp only
      rw [(Build.bind_of_ok hids).1, (Build.bind_of_ok hids).2]
      exact (hoperands.mono fun _ _ => .inr).trans
        (ask_names hstem (h.grows hoperands) fun _ hrequest => by
          obtain ⟨-, hname, -⟩ := Call.request_says hrequest
          exact hname)

/-- **The nodes of a call.** The node that a call returns has the name that the call gives, if it
gives one, and all other nodes that are appended have generated names, also where the call fails. -/
theorem perform_names (hstem : settings.options.namePrefix = some stem) (h : graph.WellFormed)
    (call : Call) :
    graph.Grows (fun before node => node.IsGiven call.name (settings.perform call graph).result ∨
      before.GeneratesFor stem node) (settings.perform call graph).graph := by
  cases hfold : settings.foldedCall? call with
  | some folded =>
    obtain ⟨hgraph, hresult⟩ := perform_of_folded hfold graph
    rw [hgraph, hresult]
    exact constant_names hstem h _ call.name
  | none =>
    rw [perform_of_unfolded hfold]
    exact performStages_names hstem h call

/-- A call is refused for no other name than the one that it gives. -/
theorem name_of_perform_eq_nameInUse {call : Call} {used : String}
    (h : (settings.perform call graph).result = .error (.nameInUse used)) :
    call.name = some used := by
  cases hfold : settings.foldedCall? call with
  | some folded =>
    rw [(perform_of_folded hfold graph).2] at h
    exact (constant_refused h).1
  | none =>
    rw [perform_of_unfolded hfold] at h
    exact ((performStages_eq_nameInUse call).1 h).1

end Settings

/-! ### Runs -/

/-- With a prefix every node that a call appends has a name. -/
theorem Settings.named_perform {settings : Settings} {stem : String} {graph : Graph}
    (hstem : settings.options.namePrefix = some stem) (h : graph.WellFormed)
    (hnamed : ∀ node ∈ graph.nodes, node.name.isSome = true) (call : Call) :
    ∀ node ∈ (settings.perform call graph).graph.nodes, node.name.isSome = true := by
  have hgrows : graph.Grows (fun _ node => node.name.isSome = true)
      (settings.perform call graph).graph := by
    refine (settings.perform_names hstem h call).mono fun _ node hnode => ?_
    rcases hnode with ⟨given, -, hname, -⟩ | ⟨steps, m, hname, -⟩ <;> rw [hname] <;> rfl
  exact hgrows.forall_mem (fun _ hnode => hnode) hnamed

theorem Builder.named_runAll {builder : Builder} {stem : String}
    (hstem : builder.options.namePrefix = some stem) (h : builder.graph.WellFormed)
    (hnamed : ∀ node ∈ builder.graph.nodes, node.name.isSome = true) (calls : List Call) :
    ∀ node ∈ (builder.runAll calls).graph.nodes, node.name.isSome = true := by
  induction calls generalizing builder with
  | nil => exact hnamed
  | cons call calls ih =>
    exact @ih (builder.run call) hstem (h.grows (builder.perform_names hstem h call))
      (Settings.named_perform hstem h hnamed call)

/-- If all nodes have names, these are distinct. -/
theorem Graph.WellFormed.nodup_map_name {graph : Graph} (h : graph.WellFormed)
    (hnamed : ∀ node ∈ graph.nodes, node.name.isSome = true) :
    (graph.nodes.map Node.name).Nodup := by
  have hall : ∀ name ∈ graph.nodes.map Node.name, name.isSome = true :=
    List.forall_mem_map.2 hnamed
  have hnames : graph.nodes.map Node.name = (graph.nodes.filterMap Node.name).map some := by
    rw [List.map_filterMap_some_eq_filter_map_isSome, List.filter_eq_self.2 hall]
  rw [hnames]
  exact h.names_nodup.map (Option.some_injective _)

/-- **Generated names.** A builder with a prefix for names starts with no nodes and performs some
calls, and then one more. Each node that this call appends, also where it fails, has the name that
the call gives, if it is the node that the call returns, or else the prefix and the least number
from its id on whose name no node had, which the search finds within as many steps as there were
named nodes. All nodes have names then, and the names are distinct. The call is refused for a name
in use only if it gives that name itself, and so is every request, whatever graph it is made for. -/
theorem names_generated {settings : Settings} {stem : String}
    (hstem : settings.options.namePrefix = some stem) (calls : List Call) (call : Call) :
    let builder := Builder.runAll { toSettings := settings } calls
    let outcome := builder.outcome call
    builder.graph.Grows (fun before node =>
        node.IsGiven call.name outcome.result ∨ before.GeneratesFor stem node) outcome.graph ∧
      (∀ node ∈ outcome.graph.nodes, node.name.isSome = true) ∧
      (outcome.graph.nodes.map Node.name).Nodup ∧
      (∀ used, outcome.result = .error (.nameInUse used) → call.name = some used) ∧
      ∀ graph request used, (settings.add request graph).result = .error (.nameInUse used) →
        request.name = some used := by
  intro builder outcome
  have hsettings : builder.toSettings = settings := Builder.settings_runAll _ calls
  have houtcome : outcome = settings.perform call builder.graph :=
    congrArg (fun s => Settings.perform s call builder.graph) hsettings
  have hwf : builder.graph.WellFormed := (Builder.reachable_runAll .empty calls).wellFormed
  have hbefore : ∀ node ∈ builder.graph.nodes, node.name.isSome = true :=
    @Builder.named_runAll { toSettings := settings } stem hstem .empty (fun _ h => nomatch h) calls
  have hnames := settings.perform_names hstem hwf call
  have hnamed := Settings.named_perform hstem hwf hbefore call
  rw [houtcome]
  refine ⟨hnames, hnamed, (hwf.grows hnames).nodup_map_name hnamed, fun used h => ?_,
    fun graph request used h => (Settings.add_eq_nameInUse.1 h).1⟩
  exact Settings.name_of_perform_eq_nameInUse h

/-- The prefix ends in a digit and a caller has taken the name with the number 2. The constants of a
sum of two literals get the numbers 1 and 3, and the sum gets the number 4. -/
theorem names_generated_sum :
    let settings : Settings := { options := { namePrefix := some "n1" } }
    let calls : List Call := [.declare (.input (.dims [2]) none) (some "n12")]
    let call : Call :=
      .binary (.combine .plus) (.literal (.fill [2] 1)) (.literal (.fill [2] 2)) none
    let builder := Builder.runAll { toSettings := settings } calls
    let outcome := builder.outcome call
    settings.options.namePrefix = some "n1" ∧
      outcome.graph.nodes.map Node.name = [some "n12", some "n11", some "n13", some "n14"] ∧
      builder.graph.Grows (fun before node => before.GeneratesFor "n1" node) outcome.graph ∧
      (∀ node ∈ outcome.graph.nodes, node.name.isSome = true) ∧
      (outcome.graph.nodes.map Node.name).Nodup ∧
      ∀ used, outcome.result ≠ .error (.nameInUse used) := by
  intro settings calls call builder outcome
  have hstem : settings.options.namePrefix = some "n1" := rfl
  obtain ⟨hgrows, hnamed, hnodup, hrefused, -⟩ := names_generated hstem calls call
  refine ⟨rfl, by decide +kernel, hgrows.mono fun _ node hnode => ?_, hnamed, hnodup,
    fun used h => ?_⟩
  · rcases hnode with ⟨given, hnone, -⟩ | hgenerated
    · cases hnone
    · exact hgenerated
  · cases hrefused used h

end ComputeGraph
