import Milo.Swarm.PlanFirewall

/-!
# ToolArguments — the payload of a planned call

`resolve_tool_arguments`: the literals of the plan, then what each binding reads from the output of a
dependency.  A path is walked with plain container access; the firewall has checked the bindings before.
-/

namespace Milo.Swarm

open Milo.Python Milo.Reasoning

/-! ## 1. Reading a path -/

/-- The static reasons of a tool-call failure. -/
inductive ToolCallReason
  | duplicateToolCallId
  | taskOutputTooLarge
  | toolArgumentsInvalid
  | toolArgumentsTooLarge
  | toolBindingConflict
  | toolBindingDuplicate
  | toolBindingPathInvalid
  | toolBindingUnknownDependency
  | toolBindingUnresolved
  | toolMaterialTooLarge
  | toolOutputTooLarge
  deriving DecidableEq, Repr

/-- One step of `read_path`: an index into a list, or a key of a mapping. -/
def readSegment (current : Json) (segment : Text ⊕ ℤ) : Except ToolCallReason Json :=
  match segment, current with
  | .inr index, .arr items => required (if 0 ≤ index then items[index.toNat]? else none) .toolBindingUnresolved
  | .inl key, .obj members => required (members.lookup key) .toolBindingUnresolved
  | _, _ => .error .toolBindingUnresolved

def readPath (root : Json) (path : List (Text ⊕ ℤ)) : Except ToolCallReason Json := path.foldlM readSegment root

/-- The sub-value at a literal path. -/
inductive AtPath : Json → List (Text ⊕ ℤ) → Json → Prop
  | here (value : Json) : AtPath value [] value
  | item {items : List Json} {i : ℕ} {value found : Json} {rest : List (Text ⊕ ℤ)} (h : items[i]? = some value)
      (hrest : AtPath value rest found) : AtPath (.arr items) (.inr i :: rest) found
  | member {members : List (Text × Json)} {key : Text} {value found : Json} {rest : List (Text ⊕ ℤ)}
      (h : members.lookup key = some value) (hrest : AtPath value rest found) :
      AtPath (.obj members) (.inl key :: rest) found

theorem readPath_ok {root found : Json} {path : List (Text ⊕ ℤ)} (h : readPath root path = .ok found) :
    AtPath root path found := by
  induction path generalizing root with
  | nil =>
    cases h
    exact AtPath.here _
  | cons segment rest ih =>
    unfold readPath at h
    rw [List.foldlM_cons] at h
    rcases except_bind_eq_ok.mp h with ⟨value, hvalue, hrest⟩
    have hpath : AtPath value rest found := ih hrest
    unfold readSegment at hvalue
    split at hvalue
    · rename_i index items
      have hitem := required_eq_ok.mp hvalue
      split at hitem
      · rename_i hindex
        have hcast : (index.toNat : ℤ) = index := Int.toNat_of_nonneg hindex
        rw [← hcast]
        exact AtPath.item hitem hpath
      · cases hitem
    · exact AtPath.member (required_eq_ok.mp hvalue) hpath
    · cases hvalue

theorem readPath_raises {root : Json} {path : List (Text ⊕ ℤ)} :
    RaisesOnly (fun e => e = .toolBindingUnresolved) (readPath root path) := by
  apply RaisesOnly.foldlM
  intro segment _ current
  unfold readSegment
  split
  · exact raisesOnly_required fun _ => rfl
  · exact raisesOnly_required fun _ => rfl
  · exact RaisesOnly.error rfl

/-! ## 2. Resolving a call -/

/-- One binding, added to the arguments so far. -/
def resolveBinding (outputs : Dict String Json) (arguments : List (Text × Json)) (binding : DependencyBinding) :
    Except ToolCallReason (List (Text × Json)) := do
  refuseIf (binding.argument ∈ arguments.map Prod.fst) .toolBindingConflict
  let output ← required (outputs.get? binding.taskId) .toolBindingUnknownDependency
  refuseIf (validBindingPath binding.path = false) .toolBindingPathInvalid
  let value ← readPath output binding.path
  refuseIf (checkMaterial value maxToolInputJsonBytes = false) .toolArgumentsTooLarge
  pure (arguments ++ [(binding.argument, value)])

/-- `resolve_tool_arguments`. -/
def resolveToolArguments (call : PlannedToolCall) (outputs : Dict String Json) :
    Except ToolCallReason (List (Text × Json)) := do
  let arguments ← call.dependencyBindings.foldlM (resolveBinding outputs) call.arguments
  refuseIf (checkMaterial (.obj arguments) maxToolInputJsonBytes = false) .toolArgumentsTooLarge
  pure arguments

/-- What a binding adds: its argument, with the sub-value its path leads to in the output it names. -/
def BoundValue (outputs : Dict String Json) (binding : DependencyBinding) (entry : Text × Json) : Prop :=
  entry.1 = binding.argument ∧
    ∃ output, outputs.get? binding.taskId = some output ∧ AtPath output binding.path entry.2

/-- The call of a task resolves to the arguments its plan shows. -/
structure ResolvesVisibly (task : SubmittedTask) (call : PlannedToolCall) (outputs : Dict String Json) : Prop where
  /-- Nothing the firewall decides is left to refuse. -/
  refused : ∀ reason, resolveToolArguments call outputs = .error reason →
    reason = .toolBindingUnresolved ∨ reason = .toolArgumentsTooLarge
  /-- The literals unchanged, then one new argument for each binding. -/
  resolved : ∀ arguments, resolveToolArguments call outputs = .ok arguments →
    ∃ added, arguments = call.arguments ++ added ∧
      List.Forall₂ (BoundValue outputs) call.dependencyBindings added ∧
      (added.map Prod.fst).Nodup ∧ ∀ name ∈ added.map Prod.fst, name ∉ call.arguments.map Prod.fst
  declared : ∀ binding ∈ call.dependencyBindings, binding.taskId ∈ task.dependencies
  /-- Only the outputs the bindings name are read. -/
  confined : ∀ other : Dict String Json,
    (∀ binding ∈ call.dependencyBindings, other.get? binding.taskId = outputs.get? binding.taskId) →
      resolveToolArguments call other = resolveToolArguments call outputs

/-! ## 3. What the firewall has checked -/

/-- The bindings of a call as the firewall lets them through. -/
structure BindingsAccepted (task : SubmittedTask) (call : PlannedToolCall) : Prop where
  distinct : (call.dependencyBindings.map DependencyBinding.argument).Nodup
  fresh : ∀ binding ∈ call.dependencyBindings, binding.argument ∉ call.arguments.map Prod.fst
  declared : ∀ binding ∈ call.dependencyBindings, binding.taskId ∈ task.dependencies
  literal : ∀ binding ∈ call.dependencyBindings, validBindingPath binding.path = true

section Accepted

variable {v : PlanValidator} {task : SubmittedTask} {call : PlannedToolCall}

theorem validateBinding_ok {bound bound' : List Text} {binding : DependencyBinding}
    (h : PlanValidator.validateBinding task call bound binding = .ok bound') :
    bound' = bound ++ [binding.argument] ∧ binding.argument ∉ bound ∧
      binding.argument ∉ call.arguments.map Prod.fst ∧ binding.taskId ∈ task.dependencies ∧
      validBindingPath binding.path = true := by
  rcases except_bind_eq_ok.mp h with ⟨_, hdistinct, h⟩
  rcases except_bind_eq_ok.mp h with ⟨_, hfresh, h⟩
  rcases except_bind_eq_ok.mp h with ⟨_, hdeclared, h⟩
  rcases except_bind_eq_ok.mp h with ⟨_, hliteral, h⟩
  cases h
  have hliteral := refuseIf_eq_ok.mp hliteral
  rw [Bool.not_eq_false] at hliteral
  exact ⟨rfl, refuseIf_eq_ok.mp hdistinct, refuseIf_eq_ok.mp hfresh,
    not_not.mp (refuseIf_eq_ok.mp hdeclared), hliteral⟩

theorem validateBindings_ok {bindings : List DependencyBinding} {bound bound' : List Text}
    (h : bindings.foldlM (PlanValidator.validateBinding task call) bound = .ok bound') (hbound : bound.Nodup) :
    bound' = bound ++ bindings.map DependencyBinding.argument ∧ bound'.Nodup ∧
      ∀ binding ∈ bindings, binding.argument ∉ call.arguments.map Prod.fst ∧
        binding.taskId ∈ task.dependencies ∧ validBindingPath binding.path = true := by
  induction bindings generalizing bound with
  | nil =>
    cases h
    rw [List.map_nil, List.append_nil]
    exact ⟨rfl, hbound, fun binding hmem => absurd hmem List.not_mem_nil⟩
  | cons binding rest ih =>
    rw [List.foldlM_cons] at h
    rcases except_bind_eq_ok.mp h with ⟨next, hfirst, hrest⟩
    obtain ⟨rfl, hnew, hchecked⟩ := validateBinding_ok hfirst
    have hnext : (bound ++ [binding.argument]).Nodup := List.concat_eq_append ▸ hbound.concat hnew
    obtain ⟨heq, hnodup, hall⟩ := ih hrest hnext
    refine ⟨?_, hnodup, List.forall_mem_cons.mpr ⟨hchecked, hall⟩⟩
    rw [heq, List.map_cons, List.append_assoc, List.singleton_append]

theorem validateCallArguments_ok {schema : InputSchema}
    (h : v.validateCallArguments task call schema = .ok ()) : BindingsAccepted task call := by
  rcases except_bind_eq_ok.mp h with ⟨_, _, h⟩
  rcases except_bind_eq_ok.mp h with ⟨_, _, h⟩
  rcases except_bind_eq_ok.mp h with ⟨bound, hbound, _⟩
  obtain ⟨heq, hnodup, hall⟩ := validateBindings_ok hbound List.nodup_nil
  rw [List.nil_append] at heq
  rw [heq] at hnodup
  exact
    { distinct := hnodup
      fresh := fun binding hmem => (hall binding hmem).1
      declared := fun binding hmem => (hall binding hmem).2.1
      literal := fun binding hmem => (hall binding hmem).2.2 }

theorem validateToolCall_ok {seen seen' : List Text} (h : v.validateToolCall task seen call = .ok seen') :
    BindingsAccepted task call := by
  rcases except_bind_eq_ok.mp h with ⟨_, _, h⟩
  rcases except_bind_eq_ok.mp h with ⟨descriptor, _, h⟩
  rcases except_bind_eq_ok.mp h with ⟨operation, _, h⟩
  rcases except_bind_eq_ok.mp h with ⟨_, hcall, _⟩
  exact validateCallArguments_ok hcall

theorem calls_of_validateTask {scan scan' : TaskScan} (h : v.validateTask scan task = .ok scan') :
    ∀ call ∈ task.tools, BindingsAccepted task call := by
  rcases except_bind_eq_ok.mp h with ⟨_, _, h⟩
  rcases except_bind_eq_ok.mp h with ⟨_, _, h⟩
  rcases except_bind_eq_ok.mp h with ⟨_, _, h⟩
  rcases except_bind_eq_ok.mp h with ⟨_, _, h⟩
  rcases except_bind_eq_ok.mp h with ⟨_, _, h⟩
  rcases except_bind_eq_ok.mp h with ⟨_, _, h⟩
  rcases except_bind_eq_ok.mp h with ⟨_, _, h⟩
  rcases except_bind_eq_ok.mp h with ⟨_, hcalls, _⟩
  rcases except_bind_eq_ok.mp hcalls with ⟨seen, hseen, _⟩
  intro call hcall
  obtain ⟨_, _, hstep⟩ := foldlM_each hseen call hcall
  exact validateToolCall_ok hstep

theorem calls_of_validatePlan {plan : SubmittedPlan} (h : v.validatePlan plan = .ok ()) :
    ∀ task ∈ plan.tasks, ∀ call ∈ task.tools, BindingsAccepted task call := by
  rcases except_bind_eq_ok.mp h with ⟨_, _, h⟩
  rcases except_bind_eq_ok.mp h with ⟨_, _, h⟩
  rcases except_bind_eq_ok.mp h with ⟨_, _, h⟩
  rcases except_bind_eq_ok.mp h with ⟨_, _, h⟩
  rcases except_bind_eq_ok.mp h with ⟨scan, htasks, _⟩
  intro task htask
  obtain ⟨_, _, hstep⟩ := foldlM_each htasks task htask
  exact calls_of_validateTask hstep

end Accepted

/-! ## 4. What a call resolves to -/

section Resolve

variable {outputs : Dict String Json} {arguments arguments' : List (Text × Json)} {binding : DependencyBinding}
  {bindings : List DependencyBinding}

theorem resolveBinding_ok (h : resolveBinding outputs arguments binding = .ok arguments') :
    ∃ entry, arguments' = arguments ++ [entry] ∧ BoundValue outputs binding entry ∧
      entry.1 ∉ arguments.map Prod.fst := by
  rcases except_bind_eq_ok.mp h with ⟨_, hfresh, h⟩
  rcases except_bind_eq_ok.mp h with ⟨output, houtput, h⟩
  rcases except_bind_eq_ok.mp h with ⟨_, _, h⟩
  rcases except_bind_eq_ok.mp h with ⟨value, hvalue, h⟩
  rcases except_bind_eq_ok.mp h with ⟨_, _, h⟩
  cases h
  have hbound : BoundValue outputs binding (binding.argument, value) :=
    ⟨rfl, output, required_eq_ok.mp houtput, readPath_ok hvalue⟩
  exact ⟨(binding.argument, value), rfl, hbound, refuseIf_eq_ok.mp hfresh⟩

/-- Each binding appends its own argument; induction on the bindings, the arguments growing. -/
theorem resolveBindings_ok (h : bindings.foldlM (resolveBinding outputs) arguments = .ok arguments') :
    ∃ added, arguments' = arguments ++ added ∧ List.Forall₂ (BoundValue outputs) bindings added ∧
      (added.map Prod.fst).Nodup ∧ ∀ name ∈ added.map Prod.fst, name ∉ arguments.map Prod.fst := by
  induction bindings generalizing arguments with
  | nil =>
    cases h
    exact ⟨[], (List.append_nil _).symm, List.Forall₂.nil, List.nodup_nil,
      fun name hname => absurd hname List.not_mem_nil⟩
  | cons binding rest ih =>
    rw [List.foldlM_cons] at h
    rcases except_bind_eq_ok.mp h with ⟨next, hfirst, hrest⟩
    obtain ⟨entry, rfl, hbound, hfresh⟩ := resolveBinding_ok hfirst
    obtain ⟨added, heq, hall, hnodup, hnew⟩ := ih hrest
    have hentry : entry.1 ∉ added.map Prod.fst := by
      intro hmem
      apply hnew entry.1 hmem
      rw [List.map_append, List.map_singleton]
      exact List.mem_append_right _ (List.mem_singleton_self _)
    refine ⟨entry :: added, ?_, List.Forall₂.cons hbound hall, ?_, ?_⟩
    · rw [heq, List.append_assoc, List.singleton_append]
    · rw [List.map_cons]
      exact List.nodup_cons.mpr ⟨hentry, hnodup⟩
    · rw [List.map_cons]
      refine List.forall_mem_cons.mpr ⟨hfresh, ?_⟩
      intro name hname hmem
      apply hnew name hname
      rw [List.map_append]
      exact List.mem_append_left _ hmem

/-- A binding that clashes with nothing and names an output is refused for what it finds there only. -/
theorem resolveBinding_raises (hfresh : binding.argument ∉ arguments.map Prod.fst)
    (houtput : ∃ output, outputs.get? binding.taskId = some output)
    (hpath : validBindingPath binding.path = true) :
    RaisesOnly (fun e => e = .toolBindingUnresolved ∨ e = .toolArgumentsTooLarge)
      (resolveBinding outputs arguments binding) := by
  obtain ⟨output, houtput⟩ := houtput
  unfold resolveBinding
  refine RaisesOnly.bind ?_ fun _ _ => RaisesOnly.bind ?_ fun found _ => RaisesOnly.bind ?_ fun _ _ =>
    RaisesOnly.bind ?_ fun value _ => RaisesOnly.bind ?_ fun _ _ => RaisesOnly.ok _
  · exact raisesOnly_refuseIf fun h => absurd h hfresh
  · apply raisesOnly_required
    intro h
    rw [houtput] at h
    cases h
  · apply raisesOnly_refuseIf
    intro h
    rw [hpath] at h
    cases h
  · intro e he
    exact Or.inl (readPath_raises e he)
  · exact raisesOnly_refuseIf fun _ => Or.inr rfl

theorem resolveBindings_raises (hdistinct : (bindings.map DependencyBinding.argument).Nodup)
    (hfresh : ∀ binding ∈ bindings, binding.argument ∉ arguments.map Prod.fst)
    (houtput : ∀ binding ∈ bindings, ∃ output, outputs.get? binding.taskId = some output)
    (hpath : ∀ binding ∈ bindings, validBindingPath binding.path = true) :
    RaisesOnly (fun e => e = .toolBindingUnresolved ∨ e = .toolArgumentsTooLarge)
      (bindings.foldlM (resolveBinding outputs) arguments) := by
  induction bindings generalizing arguments with
  | nil => exact RaisesOnly.ok _
  | cons binding rest ih =>
    rw [List.map_cons, List.nodup_cons] at hdistinct
    rw [List.forall_mem_cons] at hfresh houtput hpath
    rw [List.foldlM_cons]
    apply (resolveBinding_raises hfresh.1 houtput.1 hpath.1).bind
    intro next hnext
    obtain ⟨entry, rfl, hbound, _⟩ := resolveBinding_ok hnext
    -- The argument just added is not the target of a later binding.
    have hrest : ∀ b ∈ rest, b.argument ∉ (arguments ++ [entry]).map Prod.fst := by
      intro b hb hmem
      rw [List.map_append, List.map_singleton, List.mem_append, List.mem_singleton, hbound.1] at hmem
      rcases hmem with hmem | hmem
      · exact hfresh.2 b hb hmem
      · apply hdistinct.1
        rw [← hmem]
        exact List.mem_map_of_mem hb
    exact ih hdistinct.2 hrest houtput.2 hpath.2

theorem resolveBindings_congr {other : Dict String Json}
    (h : ∀ binding ∈ bindings, other.get? binding.taskId = outputs.get? binding.taskId) :
    bindings.foldlM (resolveBinding other) arguments = bindings.foldlM (resolveBinding outputs) arguments := by
  induction bindings generalizing arguments with
  | nil => rfl
  | cons binding rest ih =>
    rw [List.forall_mem_cons] at h
    have hfirst : resolveBinding other arguments binding = resolveBinding outputs arguments binding := by
      unfold resolveBinding
      rw [h.1]
    rw [List.foldlM_cons, List.foldlM_cons, hfirst]
    exact bind_congr fun next => ih h.2

end Resolve

/-- A call of an accepted plan resolves to what the plan shows, whatever its dependencies put out. -/
theorem resolvesVisibly {v : PlanValidator} {plan : SubmittedPlan} (h : v.validatePlan plan = .ok ())
    {task : SubmittedTask} (htask : task ∈ plan.tasks) {call : PlannedToolCall} (hcall : call ∈ task.tools)
    {outputs : Dict String Json} (houtputs : ∀ d ∈ task.dependencies, d ∈ outputs.keys) :
    ResolvesVisibly task call outputs := by
  have haccepted : BindingsAccepted task call := calls_of_validatePlan h task htask call hcall
  have hread : ∀ binding ∈ call.dependencyBindings, ∃ output, outputs.get? binding.taskId = some output :=
    fun binding hmem => Dict.mem_keys_iff.mp (houtputs binding.taskId (haccepted.declared binding hmem))
  have hraises : RaisesOnly (fun e => e = .toolBindingUnresolved ∨ e = .toolArgumentsTooLarge)
      (resolveToolArguments call outputs) := by
    unfold resolveToolArguments
    refine RaisesOnly.bind ?_ fun arguments _ => RaisesOnly.bind ?_ fun _ _ => RaisesOnly.ok _
    · exact resolveBindings_raises haccepted.distinct haccepted.fresh hread haccepted.literal
    · exact raisesOnly_refuseIf fun _ => Or.inr rfl
  refine ⟨fun reason hreason => hraises reason hreason, ?_, haccepted.declared, ?_⟩
  · intro arguments hok
    rcases except_bind_eq_ok.mp hok with ⟨found, hfound, hok⟩
    rcases except_bind_eq_ok.mp hok with ⟨_, _, hok⟩
    cases hok
    exact resolveBindings_ok hfound
  · intro other hother
    unfold resolveToolArguments
    rw [resolveBindings_congr hother]

/-- A register is listed, then one of its rows is looked up by a code the listing put out. -/
def listThenLook : SubmittedPlan where
  tasks :=
    [{ taskId := "list", dependencies := [], priority := 0, goal := "list".toList, scope := "register".toList,
       tools := [], outputSchema := [], evidence := ⟨0, [], ⟨false, 0, 0, by decide⟩⟩, recursionDepth := 0,
       estimatedCostUnits := 1, completion := ⟨[], true, false⟩ },
     { taskId := "look", dependencies := ["list"], priority := 0, goal := "look".toList,
       scope := "register".toList,
       tools :=
         [{ callId := "look-1".toList, name := "catalog".toList, operation := "row".toList,
            arguments := [("year".toList, .int 2024)],
            dependencyBindings := [⟨"code".toList, "list", [.inl "codes".toList, .inr 1]⟩] }],
       outputSchema := [], evidence := ⟨0, [], ⟨false, 0, 0, by decide⟩⟩, recursionDepth := 0, estimatedCostUnits := 1,
       completion := ⟨[], true, false⟩ }]
  assignments := [⟨"list", []⟩, ⟨"look", ["list"]⟩]
  maxReplans := 0
  estimatedCostUnits := 2
  stated := by decide
  unique := by decide
  assignedOnce := by decide
  assigned := by
    intro taskId
    rfl
  known := by decide

def rowValidator : PlanValidator where
  tools :=
    [⟨"catalog".toList, [⟨"row".toList,
      ⟨[("code".toList, .obj []), ("year".toList, .obj [])], ["code".toList]⟩, none, none⟩]⟩]
  limits := ⟨⟨1⟩, 4, 4, 1, 10, 4, 8⟩
  callRules := []
  unicode := asciiUnicode
  outputSchemaIsRuntimeValid := fun _ => true
  validateJsonSchema := fun _ _ => true

/-- The second code of the listing reaches the call, and nothing but the listing is read. -/
theorem resolvesVisibly_listThenLook :
    ∃ task ∈ listThenLook.tasks, ∃ call ∈ task.tools,
      ResolvesVisibly task call (Dict.empty.set "list" (.obj [("codes".toList, .arr [.int 7, .int 9])])) ∧
      resolveToolArguments call (Dict.empty.set "list" (.obj [("codes".toList, .arr [.int 7, .int 9])])) =
        .ok [("year".toList, .int 2024), ("code".toList, .int 9)] := by
  have haccepted : rowValidator.validatePlan listThenLook = .ok () := by decide +kernel
  refine ⟨_, List.mem_cons_of_mem _ List.mem_cons_self, _, List.mem_cons_self, ?_, by rfl⟩
  apply resolvesVisibly haccepted (List.mem_cons_of_mem _ List.mem_cons_self) List.mem_cons_self
  decide

end Milo.Swarm
