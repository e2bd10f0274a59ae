import AllTomorrow.PipelineRuntime
import AllTomorrow.SnapshotRoundTrip
import Mathlib.Data.String.Basic

/-!
# References to the request, the context and the variables

Every lookup of a reference builds its namespace anew, of the three roots and of the outputs
of the steps. What a path finds below a root is the same object of the run whatever the
steps were called and whatever they put out, unless a step bears the name of a root: its
entry replaces the root.
-/

namespace AllTomorrow

open PyEntries (get?_cons get?_set_of_ne get?_set_self isText_iff)

namespace Pipeline

/-! ## Paths without a dot -/

theorem splitOnAux_of_notMem (m r : List Char) (h : '.' ∉ r) :
    String.splitOnAux (String.ofList (m ++ r)) "." 0 ⟨String.utf8Len m⟩ 0 [] = [String.ofList (m ++ r)] := by
  induction r generalizing m with
  | nil =>
    have hend : String.Pos.Raw.atEnd (String.ofList (m ++ [])) ⟨String.utf8Len m⟩ = true := by
      simp [String.atEnd_iff]
    rw [String.splitOnAux, if_pos hend]
    have hall := String.extract_of_valid [] m []
    simpa using hall
  | cons c r ih =>
    have hend : ¬String.Pos.Raw.atEnd (String.ofList (m ++ c :: r)) ⟨String.utf8Len m⟩ = true := by
      have hpos := c.utf8Size_pos
      rw [String.atEnd_iff, String.rawEndPos_ofList, String.utf8Len_append, String.utf8Len_cons, String.Pos.Raw.mk_le_mk]
      omega
    have hget : String.Pos.Raw.get (String.ofList (m ++ c :: r)) ⟨String.utf8Len m⟩ = c := by
      simpa using String.get_of_valid m (c :: r)
    have hne : ¬(c == String.Pos.Raw.get "." 0) = true := by
      intro heq
      have hdot : c = '.' := beq_iff_eq.mp heq
      exact h (hdot ▸ List.mem_cons_self)
    rw [String.splitOnAux, if_neg hend, hget, if_neg hne]
    have hnext : String.Pos.Raw.next (String.ofList (m ++ c :: r)) ⟨String.utf8Len m⟩ = ⟨String.utf8Len (m ++ [c])⟩ := by
      have hvalid := String.next_of_valid m c r
      simpa using hvalid
    have hrest := ih (m ++ [c]) fun hmem => h (List.mem_cons_of_mem c hmem)
    rw [List.append_assoc, List.singleton_append] at hrest
    rw [← hrest, ← hnext]
    rfl

theorem splitOn_of_notMem {s : String} (h : '.' ∉ s.toList) : s.splitOn "." = [s] := by
  have haux := splitOnAux_of_notMem [] s.toList h
  rw [List.nil_append, String.ofList_toList] at haux
  exact haux

/-- What a class has under a name: an object that its instances share, or a function that is bound to the
instance. -/
inductive ClassAttribute where
  | shared (o : PyObj)
  | bound

def boundFunction (name : String) (self : PyObj) : PyObj := .object [("__name__", .str name), ("__self__", self)]

def ClassAttribute.get (name : String) (self : PyObj) : ClassAttribute → PyObj
  | .shared o => o
  | .bound => boundFunction name self

/-- What the classes of a mapping, of a context and of bound functions have. -/
structure Classes where
  ofDict : String → Option ClassAttribute
  ofContext : String → Option ClassAttribute
  ofBound : String → String → Option ClassAttribute

def field? : PyObj → String → Option PyObj
  | .object fields, name => fields.lookup name
  | _, _ => none

/-- `getattr` of a mapping, a context and a bound function: the fields, then what the class has. -/
structure Objects.Native (objects : Objects) (classes : Classes) : Prop where
  dict : ∀ entries name,
    objects.getAttr (.dict entries) name = .ok ((classes.ofDict name).map (·.get name (.dict entries)))
  context : ∀ context name,
    objects.getAttr (contextObject context) name = .ok ((field? (contextObject context) name).or
        ((classes.ofContext name).map (·.get name (contextObject context))))
  bound : ∀ function self name,
    objects.getAttr (boundFunction function self) name =
      .ok (if name = "__self__" then some self
        else (classes.ofBound function name).map (·.get name (boundFunction function self)))

inductive Found where
  | context
  | mapping
  | bound (name : String) (self : Found)
  | value (o : PyObj)

def Found.object (context : ExecutionContext) : Found → PyObj
  | .context => contextObject context
  | .mapping => .dict context.contextVariables
  | .bound name self => boundFunction name (self.object context)
  | .value o => o

def ClassAttribute.found (name : String) (self : Found) : ClassAttribute → Found
  | .shared o => .value o
  | .bound => .bound name self

@[simp] theorem ClassAttribute.object_found (a : ClassAttribute) (name : String) (self : Found)
    (context : ExecutionContext) : (a.found name self).object context = a.get name (self.object context) := by
  cases a <;> rfl

section Paths

variable (objects : Objects) (classes : Classes) (base : ExecutionContext) (path : String)

def resolved {α : Type} (found : Option α) : Except PipelineExn α :=
  match found with
  | some a => .ok a
  | none => .error (.contractError ("unresolved pipeline reference: $\x7b" ++ path ++ "\x7d"))

/-- What a part of the path finds in an object, in a run that has completed no step. -/
def Found.part : Found → String → Except PipelineExn Found
  | .context, part =>
      resolved path
        (if part = "variables" then some .mapping
          else ((field? (contextObject base) part).map .value).or
            ((classes.ofContext part).map (·.found part .context)))
  | .mapping, part =>
      resolved path
        (((PyEntries.get? base.contextVariables part).map .value).or
          ((classes.ofDict part).map (·.found part .mapping)))
  | .bound name self, part =>
      resolved path
        (if part = "__self__" then some self else (classes.ofBound name part).map (·.found part (.bound name self)))
  | .value o, part => (lookupPart objects path o part).map .value

def Found.parts : Found → List String → Except PipelineExn Found
  | found, [] => .ok found
  | found, part :: parts => do
      let found ← found.part objects classes base path part
      found.parts parts

/-- The rest of the path never asks the mapping of the variables for the entry of the steps. -/
def Found.SparesSteps : Found → List String → Prop
  | _, [] => True
  | found, part :: parts =>
      ¬(found = .mapping ∧ part = "steps") ∧
        ∀ next, found.part objects classes base path part = .ok next → next.SparesSteps parts

end Paths

/-! ## The same object in every run -/

/-- The same context, apart from the entry of the steps among its variables. -/
structure SameButSteps (base context : ExecutionContext) : Prop where
  fields : context = { base with contextVariables := context.contextVariables }
  entries : ∀ name, name ≠ "steps" →
    PyEntries.get? context.contextVariables name = PyEntries.get? base.contextVariables name

section Same

variable {objects : Objects} {classes : Classes} {base context : ExecutionContext} {path : String}

theorem SameButSteps.field? (h : SameButSteps base context) {name : String} (hname : name ≠ "variables") :
    Pipeline.field? (contextObject context) name = Pipeline.field? (contextObject base) name := by
  have hbeq : (name == "variables") = false := beq_eq_false_iff_ne.mpr hname
  rw [h.fields]
  unfold contextObject Pipeline.field?
  simp only [List.lookup_cons, hbeq]

theorem map_resolved {α β : Type} (found : Option α) (f : α → β) :
    (resolved path found).map f = resolved path (found.map f) := by
  cases found <;> rfl

theorem lookupAttr_eq (path : String) {current : PyObj} {part : String} {found : Option PyObj}
    (h : objects.getAttr current part = .ok found) : lookupAttr objects path current part = resolved path found := by
  simp only [lookupAttr, h]
  cases found <;> rfl

theorem map_object_found (a : Option ClassAttribute) (name : String) (self : Found) :
    (a.map (·.found name self)).map (Found.object context) = a.map (·.get name (self.object context)) := by
  rw [Option.map_map]
  congr 1
  funext a
  exact ClassAttribute.object_found a name self context

theorem map_object_value (o : Option PyObj) : (o.map Found.value).map (Found.object context) = o := by
  cases o <;> rfl

/-- One part finds the same object in every run, unless it asks for the steps. -/
theorem lookupPart_object (native : objects.Native classes) (same : SameButSteps base context) {found : Found}
    {part : String} (hsteps : ¬(found = .mapping ∧ part = "steps")) : lookupPart objects path (found.object context) part =
      (found.part objects classes base path part).map (Found.object context) := by
  cases found with
  | value o =>
    rw [Found.part, Found.object]
    cases lookupPart objects path o part <;> rfl
  | bound name self =>
    have hattr := lookupAttr_eq path (native.bound name (self.object context) part)
    rw [Found.part, map_resolved]
    refine hattr.trans ?_
    by_cases hself : part = "__self__"
    · rw [if_pos hself, if_pos hself, Option.map_some]
    · rw [if_neg hself, if_neg hself, map_object_found]
      rfl
  | mapping =>
    have hpart : part ≠ "steps" := fun h => hsteps ⟨rfl, h⟩
    have hattr := lookupAttr_eq path (native.dict context.contextVariables part)
    rw [Found.part, map_resolved, Option.map_or, map_object_value, map_object_found, ← same.entries part hpart]
    cases hentry : PyEntries.get? context.contextVariables part with
    | some o => simp only [Found.object, lookupPart, hentry, Option.some_or, resolved]
    | none =>
      simp only [Found.object, lookupPart, hentry, Option.none_or]
      exact hattr
  | context =>
    have hattr := lookupAttr_eq path (native.context context part)
    rw [Found.part, map_resolved]
    refine hattr.trans ?_
    by_cases hpart : part = "variables"
    · rw [if_pos hpart, hpart]
      rfl
    · rw [if_neg hpart, Option.map_or, map_object_value, map_object_found, same.field? hpart]
      rfl

theorem lookupParts_object (native : objects.Native classes) (same : SameButSteps base context) {found : Found}
    {parts : List String} (hspares : found.SparesSteps objects classes base path parts) :
    lookupParts objects path (found.object context) parts =
      (found.parts objects classes base path parts).map (Found.object context) := by
  induction parts generalizing found with
  | nil => rfl
  | cons part parts ih =>
    obtain ⟨hsteps, hrest⟩ := hspares
    rw [lookupParts, Found.parts, lookupPart_object native same hsteps]
    cases hfound : found.part objects classes base path part with
    | error e => rfl
    | ok next => exact ih (hrest next hfound)

end Same

/-! ## Entries of steps in the namespace -/

def entriesOfSteps (contextVariables : PyEntries) : Except PipelineExn PyEntries :=
  match (PyEntries.get? contextVariables "steps").getD (.dict []) with
  | .dict steps => .ok steps
  | _ => .error (.typeError "object is not a mapping")

/-- What the unpacked entries put under a name; a later one replaces an earlier one. -/
def unpacked (name : String) : PyEntries → Option PyObj
  | [] => none
  | e :: es => (unpacked name es).or (if e.1.isText name then some e.2 else none)

theorem isText_of_eqv {k k' : PyObj} (h : k.eqv k' = true) (name : String) : k.isText name = k'.isText name := by
  cases k <;> cases k' <;> simp_all [PyObj.eqv, PyObj.isText, PyObj.number?]

theorem eqv_of_isText {k k' : PyObj} {name : String} (h : k.isText name = true) (h' : k'.isText name = true) :
    k.eqv k' = true := by
  rw [isText_iff.mp h, isText_iff.mp h', PyObj.eqv]
  exact decide_eq_true rfl

theorem get?_setItem (es : PyEntries) (k v : PyObj) (name : String) :
    PyEntries.get? (setItem es k v) name = if k.isText name then some v else PyEntries.get? es name := by
  induction es with
  | nil => exact get?_cons (k, v) [] name
  | cons e es ih =>
    rw [setItem]
    by_cases heqv : e.1.eqv k = true
    · rw [if_pos heqv, get?_cons, get?_cons, isText_of_eqv heqv name]
      split <;> rfl
    · rw [if_neg heqv, get?_cons, get?_cons, ih]
      by_cases hk : k.isText name = true
      · have he : ¬e.1.isText name = true := fun he => heqv (eqv_of_isText he hk)
        rw [if_neg he, if_pos hk, if_pos hk]
      · rw [if_neg hk, if_neg hk]

theorem get?_unpack (steps root : PyEntries) (name : String) :
    PyEntries.get? (steps.foldl (fun es e => setItem es e.1 e.2) root) name =
      (unpacked name steps).or (PyEntries.get? root name) := by
  induction steps generalizing root with
  | nil => rfl
  | cons e es ih =>
    rw [List.foldl_cons, ih, get?_setItem, unpacked, Option.or_assoc]
    congr 1
    split <;> rfl

theorem unpacked_set_of_ne (steps : PyEntries) {id name : String} (v : PyObj) (h : id ≠ name) :
    unpacked name (PyEntries.set steps id v) = unpacked name steps := by
  have hid : ¬(PyObj.str id).isText name = true := by
    rw [isText_iff, PyObj.str.injEq]
    exact h
  induction steps with
  | nil =>
    rw [PyEntries.set, unpacked, unpacked, if_neg hid]
    rfl
  | cons e es ih =>
    rw [PyEntries.set]
    split
    · rename_i htext
      have hkey : ¬e.1.isText name = true := by
        rw [isText_iff.mp htext]
        exact hid
      rw [unpacked, unpacked, if_neg hkey, if_neg hkey]
    · rw [unpacked, unpacked, ih]

variable {contextVariables contextVariables' : PyEntries}

/-- A completed step changes no other variable and, among the steps, no other name. -/
theorem withStepOutput_ok {step : PipelineStep} {output : PyObj}
    (h : withStepOutput contextVariables step output = .ok contextVariables') :
    (∀ name, name ≠ "steps" → PyEntries.get? contextVariables' name = PyEntries.get? contextVariables name) ∧
      ∀ name, step.id ≠ name →
        (entriesOfSteps contextVariables').map (unpacked name) = (entriesOfSteps contextVariables).map (unpacked name) := by
  unfold withStepOutput at h
  dsimp only at h
  split at h
  · rename_i hnone
    cases h
    refine ⟨fun name hname => get?_set_of_ne contextVariables _ hname, fun name hname => ?_⟩
    unfold entriesOfSteps
    rw [get?_set_self, hnone]
    exact congrArg Except.ok (unpacked_set_of_ne [] _ hname)
  · rename_i steps hsome
    cases h
    refine ⟨fun name hname => get?_set_of_ne contextVariables _ hname, fun name hname => ?_⟩
    unfold entriesOfSteps
    rw [get?_set_self, hsome]
    exact congrArg Except.ok (unpacked_set_of_ne steps _ hname)
  · cases h

/-- `_drive` after the steps with these outputs. -/
def completeSteps (contextVariables : PyEntries) (outputs : List (PipelineStep × PyObj)) : Except PipelineExn PyEntries :=
  outputs.foldlM (fun contextVariables o => withStepOutput contextVariables o.1 o.2) contextVariables

theorem completeSteps_ok {outputs : List (PipelineStep × PyObj)}
    (h : completeSteps contextVariables outputs = .ok contextVariables') :
    (∀ name, name ≠ "steps" → PyEntries.get? contextVariables' name = PyEntries.get? contextVariables name) ∧
      ∀ name, (∀ o ∈ outputs, o.1.id ≠ name) →
        (entriesOfSteps contextVariables').map (unpacked name) = (entriesOfSteps contextVariables).map (unpacked name) := by
  induction outputs generalizing contextVariables with
  | nil =>
    cases h
    exact ⟨fun _ _ => rfl, fun _ _ => rfl⟩
  | cons o outputs ih =>
    rw [completeSteps, List.foldlM_cons] at h
    obtain ⟨next, hnext, hrest⟩ := except_bind_ok.mp h
    obtain ⟨hentries, hsteps⟩ := withStepOutput_ok hnext
    obtain ⟨hentries', hsteps'⟩ := ih hrest
    refine ⟨fun name hname => (hentries' name hname).trans (hentries name hname), fun name hname => ?_⟩
    have hhead := hname o List.mem_cons_self
    have htail := fun o' ho' => hname o' (List.mem_cons_of_mem o ho')
    exact (hsteps' name htail).trans (hsteps name hhead)

/-! ## Runs of specs -/

/-- The run has completed steps of its spec, and has otherwise the context that it started with. -/
structure RunRecord.Completed (run : RunRecord) (base : ExecutionContext) : Prop where
  fields : run.context = { base with contextVariables := run.context.contextVariables }
  steps : ∃ outputs : List (PipelineStep × PyObj), (∀ o ∈ outputs, o.1 ∈ run.spec.steps) ∧
    completeSteps base.contextVariables outputs = .ok run.context.contextVariables

variable {run : RunRecord}

theorem RunRecord.Completed.sameButSteps {base : ExecutionContext} (h : run.Completed base) :
    SameButSteps base run.context := by
  obtain ⟨outputs, _, hvariables⟩ := h.steps
  exact ⟨h.fields, (completeSteps_ok hvariables).1⟩

theorem RunRecord.Completed.unpacked {base : ExecutionContext} (h : run.Completed base)
    {name : String} (hname : name ∉ run.spec.steps.map PipelineStep.id) :
    (entriesOfSteps run.context.contextVariables).map (Pipeline.unpacked name) =
      (entriesOfSteps base.contextVariables).map (Pipeline.unpacked name) := by
  obtain ⟨outputs, hsteps, hvariables⟩ := h.steps
  refine (completeSteps_ok hvariables).2 name fun o ho hid => hname ?_
  rw [← hid]
  exact List.mem_map_of_mem (hsteps o ho)

def rootFound (base : ExecutionContext) : String → Option Found
  | "request" => some (.value (requestObject base.request))
  | "context" => some .context
  | "variables" => some .mapping
  | _ => none

def startFound (base : ExecutionContext) (name : String) (root : Found) : Except PipelineExn Found :=
  (entriesOfSteps base.contextVariables).map fun steps => ((unpacked name steps).map .value).getD root

def rootEntries (run : RunRecord) : PyEntries :=
  [(.str "request", requestObject run.context.request), (.str "context", contextObject run.context),
    (.str "variables", .dict run.context.contextVariables)]

theorem lookupRoot_eq (run : RunRecord) : lookupRoot run = (entriesOfSteps run.context.contextVariables).map fun steps =>
      steps.foldl (fun es e => setItem es e.1 e.2) (rootEntries run) := by
  unfold lookupRoot entriesOfSteps
  dsimp only
  cases (PyEntries.get? run.context.contextVariables "steps").getD (.dict []) with
  | dict steps => rfl
  | _ => rfl

theorem get?_root {base : ExecutionContext} (same : SameButSteps base run.context) {name : String}
    {root : Found} (hroot : rootFound base name = some root) :
    PyEntries.get? (rootEntries run) name = some (root.object run.context) := by
  have hrequest : run.context.request = base.request := by rw [same.fields]
  unfold rootFound at hroot
  split at hroot
  · cases hroot
    rw [rootEntries, hrequest]
    rfl
  · cases hroot
    rfl
  · cases hroot
    rfl
  · cases hroot

section Hijacking

variable (objects : Objects) (classes : Classes)

/-- The path begins with a root and never asks the mapping of the variables for the steps. -/
def SparesSteps (base : ExecutionContext) (path : String) : Prop :=
  ∃ name parts root, path.splitOn "." = name :: parts ∧ rootFound base name = some root ∧
    ∀ start, startFound base name root = .ok start → start.SparesSteps objects classes base path parts

/-- Two runs find the same object of the run, or the same value, or raise the same error. -/
def FindSame (run run' : RunRecord) (path : String) : Prop :=
  ∃ found : Except PipelineExn Found,
    lookup objects path run = found.map (Found.object run.context) ∧
      lookup objects path run' = found.map (Found.object run'.context)

/-- Whatever steps of the two specs have completed, a path finds the same in both runs. -/
def NotHijacked (spec spec' : PipelineSpec) : Prop :=
  ∀ (base : ExecutionContext) (run run' : RunRecord) (path : String), run.spec = spec → run'.spec = spec' →
    run.Completed base → run'.Completed base → SparesSteps objects classes base path →
    FindSame objects run run' path

variable {objects classes} {root : Found}

variable {base : ExecutionContext} {parts : List String}

theorem lookup_eq {path name : String}
    (same : SameButSteps base run.context) (hpath : path.splitOn "." = name :: parts)
    (hroot : rootFound base name = some root) :
    lookup objects path run = (do
      let start ← (entriesOfSteps run.context.contextVariables).map (unpacked name)
      lookupParts objects path (start.getD (root.object run.context)) parts) := by
  have hget := get?_root same hroot
  rw [lookup, lookupRoot_eq, hpath]
  cases entriesOfSteps run.context.contextVariables with
  | error e => rfl
  | ok steps =>
    have hunpack := get?_unpack steps (rootEntries run) name
    rw [hget, Option.or_some] at hunpack
    simp only [Except.map]
    change lookupParts objects path (.dict _) (name :: parts) = _
    rw [lookupParts, lookupPart, hunpack]
    rfl

/-- What a lookup finds is found in a run that has completed no step. -/
theorem lookup_eq_found (native : objects.Native classes) {path name : String} (completed : run.Completed base)
    (hname : name ∉ run.spec.steps.map PipelineStep.id) (hpath : path.splitOn "." = name :: parts)
    (hroot : rootFound base name = some root)
    (hspares : ∀ start, startFound base name root = .ok start → start.SparesSteps objects classes base path parts) :
    lookup objects path run = (startFound base name root >>= fun start => start.parts objects classes base path parts).map
        (Found.object run.context) := by
  have same := completed.sameButSteps
  rw [lookup_eq same hpath hroot, completed.unpacked hname]
  unfold startFound at hspares ⊢
  cases hentries : entriesOfSteps base.contextVariables with
  | error e => rfl
  | ok steps =>
    have hstart := hspares _ (by rw [hentries]; rfl)
    have hobject : (unpacked name steps).getD (root.object run.context) =
        (((unpacked name steps).map Found.value).getD root).object run.context := by
      cases unpacked name steps <;> rfl
    have hparts := lookupParts_object native same hstart
    rw [← hobject] at hparts
    exact hparts

variable {name : String}

theorem rootFound_iff (base : ExecutionContext) :
    (∃ root, rootFound base name = some root) ↔ name ∈ ["request", "context", "variables"] := by
  unfold rootFound
  split
  · simp
  · simp
  · simp
  · rename_i hrequest hcontext hvariables
    have hnot : name ∉ ["request", "context", "variables"] := by
      simpa using ⟨fun h => hrequest h, fun h => hcontext h, fun h => hvariables h⟩
    simp [hnot]

variable {spec spec' : PipelineSpec}

theorem NotHijacked.symm (h : NotHijacked objects classes spec spec') : NotHijacked objects classes spec' spec := by
  intro base run run' path hspec hspec' completed completed' hspares
  obtain ⟨found, hrun, hrun'⟩ := h base run' run path hspec' hspec completed' completed hspares
  exact ⟨found, hrun', hrun⟩

/-- No step has the name of a root. -/
def SparesRoots (spec : PipelineSpec) : Prop :=
  ∀ name ∈ ["request", "context", "variables"], name ∉ spec.steps.map PipelineStep.id

theorem notHijacked_of_sparesRoots (native : objects.Native classes) (h : SparesRoots spec)
    (h' : SparesRoots spec') : NotHijacked objects classes spec spec' := by
  intro base run run' path hspec hspec' completed completed' hspares
  obtain ⟨name, parts, root, hpath, hroot, hspares⟩ := hspares
  have hname := (rootFound_iff _).mp ⟨root, hroot⟩
  subst hspec hspec'
  exact ⟨_, lookup_eq_found native completed (h name hname) hpath hroot hspares,
    lookup_eq_found native completed' (h' name hname) hpath hroot hspares⟩

/-! ## A step that bears the name of a root -/

theorem root_without_dot (h : name ∈ ["request", "context", "variables"]) : '.' ∉ name.toList := by
  simp only [List.mem_cons, List.not_mem_nil, or_false] at h
  obtain rfl | rfl | rfl := h <;> decide

def freshRun (spec : PipelineSpec) : RunRecord := { sampleRun with spec := spec }

def runAfter (spec : PipelineSpec) (step : PipelineStep) : RunRecord :=
  { sampleRun with
    spec := spec
    context := { sampleContext with
      contextVariables := [(.str "steps", .dict [(.str step.id, .dict [(.str "output", .none)])])] } }

theorem freshRun_completed (spec : PipelineSpec) : (freshRun spec).Completed sampleContext where
  fields := rfl
  steps := ⟨[], fun _ h => (List.not_mem_nil h).elim, rfl⟩

variable {step : PipelineStep}

theorem runAfter_completed {spec : PipelineSpec} (h : step ∈ spec.steps) : (runAfter spec step).Completed sampleContext where
  fields := rfl
  steps := ⟨[(step, .none)], fun o ho => by rw [List.mem_singleton.mp ho]; exact h, rfl⟩

def emptyOutput : PyObj := .dict [(.str "output", .none)]

theorem lookup_after (spec : PipelineSpec) (h : step.id ∈ ["request", "context", "variables"]) :
    lookup objects step.id (runAfter spec step) = .ok emptyOutput := by
  obtain ⟨root, hroot⟩ := (rootFound_iff sampleContext).mpr h
  have same : SameButSteps sampleContext (runAfter spec step).context :=
    ⟨rfl, fun name hname => get?_set_of_ne [] _ hname⟩
  have hentries : entriesOfSteps (runAfter spec step).context.contextVariables = .ok [(.str step.id, emptyOutput)] := rfl
  have hunpacked : unpacked step.id [(.str step.id, emptyOutput)] = some emptyOutput := by
    simp [unpacked, PyObj.isText]
  rw [lookup_eq same (splitOn_of_notMem (root_without_dot h)) hroot, hentries, Except.map, hunpacked]
  rfl

theorem lookup_fresh (spec : PipelineSpec) (hroot : rootFound sampleContext name = some root) :
    lookup objects name (freshRun spec) = .ok (root.object sampleContext) := by
  have hdot := root_without_dot ((rootFound_iff _).mp ⟨root, hroot⟩)
  rw [lookup_eq (freshRun_completed spec).sameButSteps (splitOn_of_notMem hdot) hroot]
  rfl

theorem root_ne_emptyOutput (hroot : rootFound sampleContext name = some root) :
    root.object sampleContext ≠ emptyOutput := by
  unfold rootFound at hroot
  split at hroot
  · cases hroot
    exact fun h => by cases h
  · cases hroot
    exact fun h => by cases h
  · cases hroot
    exact fun h => by cases h
  · cases hroot

theorem sparesSteps_root (h : name ∈ ["request", "context", "variables"]) :
    SparesSteps objects classes sampleContext name := by
  obtain ⟨root, hroot⟩ := (rootFound_iff _).mpr h
  exact ⟨name, [], root, splitOn_of_notMem (root_without_dot h), hroot, fun _ _ => trivial⟩

theorem not_hijacked_at (h : NotHijacked objects classes spec spec') (hname : name ∈ ["request", "context", "variables"]) : name ∉ spec.steps.map PipelineStep.id := by
  intro hmem
  obtain ⟨step, hstep, rfl⟩ := List.mem_map.mp hmem
  obtain ⟨root, hroot⟩ := (rootFound_iff sampleContext).mpr hname
  obtain ⟨found, hafter, hfresh⟩ := h sampleContext (runAfter spec step) (freshRun spec') step.id rfl rfl
    (runAfter_completed hstep) (freshRun_completed spec') (sparesSteps_root hname)
  rw [lookup_after spec hname] at hafter
  rw [lookup_fresh spec' hroot] at hfresh
  cases found with
  | error e => cases hafter
  | ok found =>
    injection hafter with hafter
    injection hfresh with hfresh
    cases found with
    | context => cases hafter
    | mapping => simp [Found.object, runAfter, emptyOutput] at hafter
    | bound name self => cases hafter
    | value o => exact root_ne_emptyOutput hroot (hfresh.trans hafter.symm)

/-- Lookups below the roots are kept from the steps exactly when no step bears the name of a root. -/
theorem lookup_not_hijacked_iff (native : objects.Native classes) (spec spec' : PipelineSpec) :
    NotHijacked objects classes spec spec' ↔ SparesRoots spec ∧ SparesRoots spec' := by
  constructor
  · intro h
    exact ⟨fun _ hname => not_hijacked_at h hname, fun _ hname => not_hijacked_at h.symm hname⟩
  · rintro ⟨h, h'⟩
    exact notHijacked_of_sparesRoots native h h'

end Hijacking

/-- A mapping with the method `get`, and functions that know their names. -/
def sampleClasses : Classes where
  ofDict name := if name = "get" then some .bound else none
  ofContext _ := none
  ofBound function name := if name = "__name__" then some (.shared (.str function)) else none

def sampleObjects : Objects where
  str _ := .ok ""
  repr _ := .ok ""
  equals a b := .ok (a.eqv b)
  getAttr
    | .dict entries, name => .ok ((sampleClasses.ofDict name).map (·.get name (.dict entries)))
    | .object fields, name => .ok (fields.lookup name)
    | _, _ => .ok none

theorem sampleObjects_native : sampleObjects.Native sampleClasses where
  dict _ _ := rfl
  context context name := congrArg Except.ok (Option.or_none).symm
  bound function self name := by
    by_cases hself : name = "__self__"
    · rw [hself]
      rfl
    · have hbeq : (name == "__self__") = false := beq_eq_false_iff_ne.mpr hself
      rw [if_neg hself]
      by_cases hname : name = "__name__"
      · rw [hname]
        rfl
      · have hbeq' : (name == "__name__") = false := beq_eq_false_iff_ne.mpr hname
        simp [sampleObjects, sampleClasses, boundFunction, List.lookup_cons, hbeq, hbeq', hname]

theorem review_sparesRoots : SparesRoots (reviewSpec 1 .active version_one) := by
  simp [SparesRoots, reviewSpec, reviewStep]

/-- A pipeline whose step is called as its node. -/
theorem review_not_hijacked :
    NotHijacked sampleObjects sampleClasses (reviewSpec 1 .active version_one) (reviewSpec 1 .active version_one) :=
  (lookup_not_hijacked_iff sampleObjects_native (reviewSpec 1 .active version_one)
    (reviewSpec 1 .active version_one)).mpr ⟨review_sparesRoots, review_sparesRoots⟩

theorem request_name_text : ¬PyText.isBlank "request" = true := by decide

def requestStep : PipelineStep :=
  ⟨"request", "agent.run", [], [], .none, .none, [], .int 0, request_name_text, node_name_text, zero_retries⟩

theorem one_request_step : ¬[requestStep] = [] := List.cons_ne_nil requestStep []

theorem one_request_step_nodup : ([requestStep].map PipelineStep.id).Nodup := List.nodup_singleton "request"

theorem request_no_targets : checkTargets ([requestStep].map PipelineStep.id) [requestStep] = .ok () := rfl

theorem requests_name_text : ¬PyText.isBlank "requests" = true := by decide

def requestSpec : PipelineSpec :=
  ⟨"requests", .int 1, .active, [requestStep], .none, .none, [], requests_name_text, version_one, one_request_step,
    one_request_step_nodup, request_no_targets⟩

/-- Once the step has returned, references to the request find its output. -/
theorem request_hijacked : ¬NotHijacked sampleObjects sampleClasses requestSpec requestSpec := by
  intro h
  have hname : "request" ∉ requestSpec.steps.map PipelineStep.id := not_hijacked_at h List.mem_cons_self
  simp [requestSpec, requestStep] at hname

end Pipeline

end AllTomorrow
