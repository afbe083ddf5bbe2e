import Mathlib
import TickWaves.Registry

/-!
# Which names share an identifier

Components and resources have one space of names: a resource stands in it under its full name,
which starts with a mark.  Whoever comes first gets the identifier, and a call with another full
name and the same identifier is refused (`Registry.keepsApart_coincides`).  A component that is
called as a resource would be in full is the same entry as this resource, which is not noticed
(`Registry.not_keepsApart_eq`).
-/

namespace TickWaves

namespace Registry

inductive Call
  | component (name : String)
  | resource (name : String)
  deriving DecidableEq

namespace Call

def fullName : Call → String
  | .component name => name
  | .resource name => ComponentId.resourceMark ++ name

def id : Call → ComponentId
  | .component name => ComponentId.ofName name
  | .resource name => ComponentId.resource name

/-- The two calls are the same, or one registers a resource and the other a component that is
called as the resource is in full. -/
inductive Coincides : Call → Call → Prop
  | same (call : Call) : Coincides call call
  | marked (name : String) :
      Coincides (.resource name) (.component (ComponentId.resourceMark ++ name))
  | unmarked (name : String) :
      Coincides (.component (ComponentId.resourceMark ++ name)) (.resource name)

theorem coincides_iff_fullName_eq {call call' : Call} :
    call.Coincides call' ↔ call.fullName = call'.fullName := by
  constructor
  case mp =>
    intro hcoincides
    cases hcoincides <;> rfl
  case mpr =>
    intro heq
    cases call with
    | component name =>
        cases call' with
        | component other => exact congrArg Call.component heq ▸ .same _
        | resource other => exact congrArg Call.component heq ▸ .unmarked other
    | resource name =>
        cases call' with
        | component other => exact congrArg Call.component heq ▸ .marked name
        | resource other =>
            obtain rfl := (String.append_right_inj _).mp heq
            exact .same _

/-- The answer to the call if a name has the identifier. -/
def answerFrom (call : Call) (holder : String) : Except NameCollision ComponentId :=
  if holder = call.fullName then .ok call.id else .error ⟨call.id, holder, call.fullName⟩

/-- The answer refuses the call for the sake of another name. -/
def IsRefusedBy (call : Call) (answer : Except NameCollision ComponentId) : Prop :=
  ∃ existing, existing ≠ call.fullName ∧ answer = .error ⟨call.id, existing, call.fullName⟩

variable {call : Call} {holder : String}

theorem answerFrom_eq_ok {id : ComponentId} (hanswer : call.answerFrom holder = .ok id) :
    id = call.id ∧ holder = call.fullName := by
  rw [answerFrom] at hanswer
  split at hanswer
  case isTrue hholder => exact ⟨(Except.ok.inj hanswer).symm, hholder⟩
  case isFalse => cases hanswer

theorem isRefusedBy_answerFrom (hholder : holder ≠ call.fullName) :
    call.IsRefusedBy (call.answerFrom holder) :=
  ⟨holder, hholder, if_neg hholder⟩

end Call

def register (registry : Registry) : Call → Except NameCollision (ComponentId × Registry)
  | .component name => registry.registerComponent name
  | .resource name => registry.registerResource name

/-- The answer to a call, and the registry afterwards.  What is refused changes nothing. -/
def step (registry : Registry) (call : Call) : Except NameCollision ComponentId × Registry :=
  match registry.register call with
  | .ok (id, next) => (.ok id, next)
  | .error collision => (.error collision, registry)

def answers : Registry → List Call → List (Call × Except NameCollision ComponentId)
  | _, [] => []
  | registry, call :: calls =>
      (call, (registry.step call).1) :: answers (registry.step call).2 calls

/-- Who holds an identifier after some calls: the name that was there, or else the name of the
first call. -/
def holder? (registry : Registry) (calls : List Call) (id : ComponentId) : Option String :=
  (registry.nameOf? id).or ((calls.find? fun call => call.id = id).map Call.fullName)

def answerAmong (registry : Registry) (calls : List Call) (call : Call) :
    Except NameCollision ComponentId :=
  call.answerFrom ((registry.holder? calls call.id).getD call.fullName)

/-- Two calls get one identifier only if they are alike, and of two calls with one identifier
that are not alike, one is refused. -/
structure KeepsApart (registry : Registry) (alike : Call → Call → Prop) (calls : List Call) :
    Prop where
  alike_of_ok : ∀ {call call' id}, (call, .ok id) ∈ registry.answers calls →
    (call', .ok id) ∈ registry.answers calls → alike call call'
  refused : ∀ {call call' answer answer'}, (call, answer) ∈ registry.answers calls →
    (call', answer') ∈ registry.answers calls → call.id = call'.id → ¬ alike call call' →
      call.IsRefusedBy answer ∨ call'.IsRefusedBy answer'

section Step

variable (registry : Registry) (call : Call)

theorem register_eq : registry.register call =
    (registry.insert call.id call.fullName).map (call.id, ·) := by
  cases call <;> rfl

/-- A call finds the name that holds its identifier, or is the first one itself. -/
theorem step_fst : (registry.step call).1 =
    call.answerFrom ((registry.nameOf? call.id).getD call.fullName) := by
  rw [step, register_eq, insert, Call.answerFrom]
  cases registry.nameOf? call.id with
  | none => simp [Except.map]
  | some existing => by_cases hexisting : existing = call.fullName <;> simp [Except.map, hexisting]

/-- Only what is called for and free is taken. -/
theorem nameOf?_step (id : ComponentId) : (registry.step call).2.nameOf? id =
    (registry.nameOf? id).or (if call.id = id then some call.fullName else none) := by
  rw [step, register_eq, insert]
  cases hname : registry.nameOf? call.id with
  | none =>
      simp only [Except.map, nameOf?, List.lookup_append, List.lookup_cons, List.lookup_nil]
      by_cases hid : call.id = id
      · simp [hid]
      · simp [hid, beq_false_of_ne (Ne.symm hid)]
  | some existing =>
      have hkept : registry.nameOf? id =
          (registry.nameOf? id).or (if call.id = id then some call.fullName else none) := by
        split
        case isTrue hid => rw [← hid, hname, Option.some_or]
        case isFalse => rw [Option.or_none]
      by_cases hexisting : existing = call.fullName <;> simpa [Except.map, hexisting] using hkept

theorem holder?_cons (calls : List Call) (id : ComponentId) :
    registry.holder? (call :: calls) id = (registry.step call).2.holder? calls id := by
  rw [holder?, holder?, nameOf?_step, List.find?_cons, Option.or_assoc]
  by_cases hid : call.id = id <;> simp [hid]

end Step

/-- The answers are known from who holds the identifiers in the end. -/
theorem answers_eq_map (registry : Registry) (calls : List Call) :
    registry.answers calls = calls.map fun call => (call, registry.answerAmong calls call) := by
  induction calls generalizing registry with
  | nil => rfl
  | cons call calls ih =>
      have hhead : (registry.step call).1 = registry.answerAmong (call :: calls) call := by
        rw [step_fst, answerAmong, holder?, List.find?_cons]
        simp
      have htail : (registry.step call).2.answerAmong calls =
          registry.answerAmong (call :: calls) := by
        funext other
        rw [answerAmong, answerAmong, holder?_cons]
      rw [answers, List.map_cons, ih, hhead, htail]

variable {registry : Registry} {calls : List Call}

/-- The answer to a call comes from the name that holds the identifier. -/
theorem eq_answerFrom_of_mem_answers {call : Call} {answer : Except NameCollision ComponentId}
    (hin : (call, answer) ∈ registry.answers calls) :
    ∃ holder, registry.holder? calls call.id = some holder ∧ answer = call.answerFrom holder := by
  rw [answers_eq_map] at hin
  obtain ⟨other, hother, heq⟩ := List.mem_map.mp hin
  obtain ⟨rfl, rfl⟩ := Prod.mk.inj heq
  have hfound : (registry.holder? calls other.id).isSome = true := by
    have hcalled : (calls.find? fun call => call.id = other.id).isSome = true :=
      List.find?_isSome.mpr ⟨other, hother, decide_eq_true rfl⟩
    rw [holder?, Option.isSome_or, Option.isSome_map, hcalled, Bool.or_true]
  obtain ⟨holder, hholder⟩ := Option.isSome_iff_exists.mp hfound
  refine ⟨holder, hholder, ?_⟩
  rw [answerAmong, hholder, Option.getD_some]

/-- Calls with one identifier are answered for the sake of one name. -/
theorem exists_holder_of_mem_answers {call call' : Call}
    {answer answer' : Except NameCollision ComponentId}
    (hin : (call, answer) ∈ registry.answers calls)
    (hin' : (call', answer') ∈ registry.answers calls) (hid : call.id = call'.id) :
    ∃ holder, answer = call.answerFrom holder ∧ answer' = call'.answerFrom holder := by
  obtain ⟨holder, hholder, hanswer⟩ := eq_answerFrom_of_mem_answers hin
  obtain ⟨holder', hholder', hanswer'⟩ := eq_answerFrom_of_mem_answers hin'
  rw [hid, hholder'] at hholder
  obtain rfl := Option.some.inj hholder
  exact ⟨holder', hanswer, hanswer'⟩

theorem id_eq_of_mem_answers {call : Call} {id : ComponentId}
    (hin : (call, .ok id) ∈ registry.answers calls) : call.id = id := by
  obtain ⟨holder, -, hanswer⟩ := eq_answerFrom_of_mem_answers hin
  exact (Call.answerFrom_eq_ok hanswer.symm).1.symm

/-- Names are kept apart, but for the components that are called as a resource is in full.  Every
call is answered by who holds its identifier: whoever was there before all calls, or else
whoever came first. -/
theorem keepsApart_coincides (registry : Registry) (calls : List Call) :
    registry.KeepsApart Call.Coincides calls ∧
      registry.answers calls = calls.map fun call => (call, registry.answerAmong calls call) := by
  constructor
  case left =>
    constructor
    case alike_of_ok =>
      intro call call' id hin hin'
      have hid : call.id = call'.id :=
        (id_eq_of_mem_answers hin).trans (id_eq_of_mem_answers hin').symm
      obtain ⟨holder, hanswer, hanswer'⟩ := exists_holder_of_mem_answers hin hin' hid
      rw [Call.coincides_iff_fullName_eq]
      calc
        call.fullName = holder := (Call.answerFrom_eq_ok hanswer.symm).2.symm
        _ = call'.fullName := (Call.answerFrom_eq_ok hanswer'.symm).2
    case refused =>
      intro call call' answer answer' hin hin' hid hunlike
      obtain ⟨holder, rfl, rfl⟩ := exists_holder_of_mem_answers hin hin' hid
      -- The one name that holds the identifier is not the name of both calls.
      by_cases hname : holder = call.fullName
      · right
        apply Call.isRefusedBy_answerFrom
        intro hname'
        exact hunlike (Call.coincides_iff_fullName_eq.mpr (hname.symm.trans hname'))
      · left
        exact Call.isRefusedBy_answerFrom hname
  case right => exact answers_eq_map registry calls

/-- A component that is called as a resource is in full is taken for this resource. -/
theorem not_keepsApart_eq : ¬ Registry.empty.KeepsApart Eq
    [.component "resource:EventQueue", .resource "EventQueue"] := by
  intro hapart
  have hanswers : Registry.empty.answers
      [.component "resource:EventQueue", .resource "EventQueue"] =
        [(.component "resource:EventQueue", .ok ⟨13596325083988527294⟩),
          (.resource "EventQueue", .ok ⟨13596325083988527294⟩)] := by
    cbv
  have heq : Call.component "resource:EventQueue" = .resource "EventQueue" := by
    apply hapart.alike_of_ok
    · rw [hanswers]
      exact List.mem_cons_self
    · rw [hanswers]
      exact List.mem_cons_of_mem _ List.mem_cons_self
  cases heq

end Registry

end TickWaves
