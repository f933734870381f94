import Mathlib.Data.List.Nodup
import TreeLint.Proofs.TryForm

namespace TreeLint.TryMethod

variable {m n returnType body : Node} {modifiers : List Modifier} {name : String}
  {parameters added : List Node} {type : TypeName} {place : Span}

def parametersOf (n : Node) : List Node :=
  match n.shape with
  | .methodDecl _ _ _ parameters _ => parameters
  | _ => []

def parameterName? (n : Node) : Option String :=
  match n.shape with
  | .parameter _ _ name => some name
  | _ => none

def parameterType? (n : Node) : Option TypeName :=
  match n.shape with
  | .parameter _ ⟨_, .typeRef type⟩ _ => some type
  | _ => none

/-- No two parameters share a name, and none of them is `void`. -/
structure WellFormedParameters (parameters : List Node) : Prop where
  names_nodup : (parameters.filterMap parameterName?).Nodup
  type_ne_void : ∀ p ∈ parameters, parameterType? p ≠ some (.predefined .void)

theorem wellFormedParameters_iff : WellFormedParameters parameters ↔
    (parameters.filterMap parameterName?).Nodup ∧
      ∀ p ∈ parameters, parameterType? p ≠ some (.predefined .void) :=
  ⟨fun h => ⟨h.names_nodup, h.type_ne_void⟩, fun h => ⟨h.1, h.2⟩⟩

instance : Decidable (WellFormedParameters parameters) :=
  decidable_of_iff' _ wellFormedParameters_iff

theorem wellFormedParameters_append : WellFormedParameters (parameters ++ added) ↔
    WellFormedParameters parameters ∧ WellFormedParameters added ∧
      (parameters.filterMap parameterName?).Disjoint (added.filterMap parameterName?) := by
  simp only [wellFormedParameters_iff, List.filterMap_append, List.nodup_append', List.forall_mem_append]
  constructor
  · rintro ⟨⟨hold, hnew, hapart⟩, htypes, htype⟩
    exact ⟨⟨hold, htypes⟩, ⟨hnew, htype⟩, hapart⟩
  · rintro ⟨⟨hold, htypes⟩, ⟨hnew, htype⟩, hapart⟩
    exact ⟨⟨hold, hnew, hapart⟩, htypes, htype⟩

@[simp]
theorem filterMap_parameterName?_outParameter (place : Span) (type : TypeName) :
    [outParameter place type].filterMap parameterName? = [outName] :=
  rfl

theorem wellFormedParameters_outParameter :
    WellFormedParameters [outParameter place type] ↔ type ≠ .predefined .void := by
  rw [wellFormedParameters_iff, filterMap_parameterName?_outParameter, List.forall_mem_singleton]
  rw [and_iff_right (List.nodup_singleton outName)]
  exact Option.some_inj.not

theorem wellFormedParameters_append_outParameter :
    WellFormedParameters (parameters ++ [outParameter place type]) ↔
      WellFormedParameters parameters ∧ (∀ p ∈ parameters, parameterName? p ≠ some outName) ∧
        type ≠ .predefined .void := by
  rw [wellFormedParameters_append, wellFormedParameters_outParameter,
    filterMap_parameterName?_outParameter, List.disjoint_singleton, List.mem_filterMap]
  push Not
  rw [and_comm (a := type ≠ _)]

theorem parametersOf_methodForm {span : Span} {fixed : List Node} :
    parametersOf (methodForm span modifiers returnType type name parameters place fixed) =
      parameters ++ [outParameter (.point (outOffset returnType parameters)) type] :=
  rfl

/-- A method is fixed when its body is a block whose statements can be fixed and its return type is
any type. It keeps its parameters and gets one behind them. All of them are well formed exactly when
those that it had are, none of these is called `value` and the method did not return `void`. -/
theorem synthesize_signature (hn : n.shape = .methodDecl modifiers returnType name parameters body) :
    ((∃ m, synthesize n = .ok m) ↔ (∃ type, returnType.shape = .typeRef type) ∧
      ∃ statements fixed, body.shape = .block statements ∧ statements.mapM fixStatement = .ok fixed) ∧
    ∀ m, synthesize n = .ok m → ∃ type place, returnType.shape = .typeRef type ∧
      parametersOf m = parameters ++ [outParameter place type] ∧
      (WellFormedParameters (parametersOf m) ↔ WellFormedParameters parameters ∧
        (∀ p ∈ parameters, parameterName? p ≠ some outName) ∧ type ≠ .predefined .void) := by
  obtain ⟨span, shape⟩ := n
  dsimp only at hn
  subst hn
  refine ⟨⟨?_, ?_⟩, ?_⟩
  · rintro ⟨m, hm⟩
    obtain ⟨statements, type, fixed, hbody, htype, hfixed, -⟩ := synthesize_eq_ok_iff.1 hm
    exact ⟨⟨type, htype⟩, statements, fixed, hbody, hfixed⟩
  · rintro ⟨⟨type, htype⟩, statements, fixed, hbody, hfixed⟩
    exact ⟨_, synthesize_eq_ok_iff.2 ⟨statements, type, fixed, hbody, htype, hfixed, rfl⟩⟩
  · intro m hm
    obtain ⟨statements, type, fixed, -, htype, -, rfl⟩ := synthesize_eq_ok_iff.1 hm
    rw [parametersOf_methodForm]
    exact ⟨type, _, htype, rfl, wellFormedParameters_append_outParameter⟩

/-- The parameter of `int TryParse(string text) { }`. -/
def parsedText : Node := ⟨⟨13, 24⟩, .parameter none ⟨⟨13, 19⟩, .typeRef (.predefined .string)⟩ "text"⟩

theorem synthesize_signature_tryParse :
    let type : Node := ⟨⟨0, 3⟩, .typeRef (.predefined .int)⟩
    let n : Node := ⟨⟨0, 29⟩, .methodDecl [] type "TryParse" [parsedText] ⟨⟨26, 29⟩, .block []⟩⟩
    ∃ m place, synthesize n = .ok m ∧
      parametersOf m = [parsedText, outParameter place (.predefined .int)] ∧
      WellFormedParameters (parametersOf m) := by
  intro type n
  obtain ⟨haccepted, hsignature⟩ := synthesize_signature (n := n) rfl
  obtain ⟨m, hm⟩ := haccepted.2 ⟨⟨_, rfl⟩, [], [], rfl, rfl⟩
  obtain ⟨type, place, htype, hparameters, hwellFormed⟩ := hsignature m hm
  cases htype
  exact ⟨m, place, hm, hparameters, hwellFormed.2 (by decide)⟩

/-- The method `void TryRun() { }`. -/
def tryRun : Node :=
  ⟨⟨0, 17⟩, .methodDecl [] ⟨⟨0, 4⟩, .typeRef (.predefined .void)⟩ "TryRun" [] ⟨⟨14, 17⟩, .block []⟩⟩

/-- The parameter of `int TryGet(int value) { }`. -/
def givenValue : Node := ⟨⟨11, 20⟩, .parameter none ⟨⟨11, 14⟩, .typeRef (.predefined .int)⟩ outName⟩

/-- The method `int TryGet(int value) { }`. -/
def tryGetValue : Node :=
  ⟨⟨0, 25⟩, .methodDecl [] ⟨⟨0, 3⟩, .typeRef (.predefined .int)⟩ "TryGet" [givenValue]
    ⟨⟨22, 25⟩, .block []⟩⟩

/-- The first of these methods gets the parameter `out void value`, and the second one another
parameter of the name `value`. -/
theorem malformed_parameters_accepted :
    (tryRun.spanViolation? = none ∧ WellFormedParameters (parametersOf tryRun) ∧
      ∃ m, synthesize tryRun = .ok m ∧
        parametersOf m = [outParameter ⟨4, 4⟩ (.predefined .void)] ∧
        ¬ WellFormedParameters (parametersOf m)) ∧
    (tryGetValue.spanViolation? = none ∧ WellFormedParameters (parametersOf tryGetValue) ∧
      ∃ m, synthesize tryGetValue = .ok m ∧
        parametersOf m = [givenValue, outParameter ⟨20, 20⟩ (.predefined .int)] ∧
        ¬ WellFormedParameters (parametersOf m)) :=
  ⟨⟨by decide +kernel, by decide, _, rfl, rfl, by decide⟩,
    by decide +kernel, by decide, _, rfl, rfl, by decide⟩

end TreeLint.TryMethod
