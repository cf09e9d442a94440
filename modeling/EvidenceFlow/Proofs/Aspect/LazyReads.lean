import Mathlib.Data.List.Forall2
import EvidenceFlow.Aspect

/-!
# Reads that wait for tasks

What the read of a property says of the tasks that are registered on the result object. The read looks
the property up if all of them are completed. Otherwise it fails with one fault for each of the others, in
the order in which they were registered: on its own if there is one only, and as an aggregate of all of
them if there are several. A task is taken as it stands when the read has waited for it, so that one which
is still pending then has not kept to the limit.
-/

namespace EvidenceFlow

/-- Whether the work succeeded. -/
def Task.isCompleted (task : Task) : Bool :=
  match task.state with
  | .completed => true
  | _ => false

namespace LazyFault

/-- What the read of a property says of a task that is not completed, by how far it has come. -/
inductive Reports (property : String) : Task × Duration → LazyFault → Prop
  | timeout {task : Task} {limit : Duration} (hpending : task.state = .pending) :
    Reports property (task, limit) (.timeout property task.engine limit)
  | cancelled {task : Task} {limit : Duration} (hcancelled : task.state = .cancelled) :
    Reports property (task, limit) (.cancelled property task.engine)
  | failed {task : Task} {limit : Duration} {cause : Fault} (hfailed : task.state = .failed cause) :
    Reports property (task, limit) (.failed property task.engine cause)

variable {property : String} {task : Task × Duration} {fault : LazyFault}

/-- What is said of one task is no aggregate. -/
theorem Reports.leaves (hreports : Reports property task fault) : fault.leaves = [fault] := by
  cases hreports <;> rfl

/-- What is said of a task names its engine. -/
theorem Reports.engines (hreports : Reports property task fault) : fault.engines = task.1.engine := by
  cases hreports <;> rfl

/-- Underneath what is said of several tasks is nothing else. -/
theorem leavesOfAll_of_reports {waited : List (Task × Duration)} {faults : List LazyFault}
    (hreports : List.Forall₂ (Reports property) waited faults) : leavesOfAll faults = faults := by
  induction hreports with
  | nil => rfl
  | cons head _ ih => rw [leavesOfAll, head.leaves, ih, List.singleton_append]

/-- What is said of several tasks names their engines, in order. -/
theorem engines_of_reports {waited : List (Task × Duration)} {faults : List LazyFault}
    (hreports : List.Forall₂ (Reports property) waited faults) :
    faults.map engines = waited.map (·.1.engine) := by
  induction hreports with
  | nil => rfl
  | cons head _ ih => rw [List.map_cons, List.map_cons, head.engines, ih]

end LazyFault

namespace Aspect

open LazyFault

variable {tasks : Tasks} {property name : String}

/-- The tasks that are registered on the aspect, in order, each as it is in the table and with the limit
that reads give it. -/
def Waits (a : Aspect) (tasks : Tasks) (waited : List (Task × Duration)) : Prop :=
  List.Forall₂ (fun registered task =>
    tasks.get? registered.task = some task.1 ∧ registered.timeout = task.2) a.tasks waited

/-- What a read finds that has nothing to wait for. -/
def lookUp (a : Aspect) (name : String) : Except Fault Json :=
  match a.value? name with
  | some value => .ok value
  | none => .error (.propertyMissing a.key name (a.missingReason name))

/-- To look a property up is no lazy read. -/
theorem lookUp_ne_lazyRead (a : Aspect) (name : String) (fault : LazyFault) :
    a.lookUp name ≠ .error (.lazyRead fault) := by
  rw [lookUp]
  cases a.value? name <;> simp

/-- A completed task keeps no read from its value. -/
theorem taskFault?_of_isCompleted {registered : Registered} {task : Task}
    (hfound : tasks.get? registered.task = some task) (hcompleted : task.isCompleted) :
    taskFault? tasks property registered = none := by
  rw [taskFault?, hfound, Option.bind_some]
  rw [Task.isCompleted] at hcompleted
  cases hstate : task.state <;> simp_all

/-- Of any other task the read says how far it has come. -/
theorem exists_reports (property : String) {registered : Registered} {task : Task}
    (hfound : tasks.get? registered.task = some task) (hundone : task.isCompleted = false) :
    ∃ fault, taskFault? tasks property registered = some fault ∧
      Reports property (task, registered.timeout) fault := by
  rw [taskFault?, hfound, Option.bind_some]
  rw [Task.isCompleted] at hundone
  cases hstate : task.state with
  | completed => simp [hstate] at hundone
  | pending => exact ⟨_, rfl, .timeout hstate⟩
  | cancelled => exact ⟨_, rfl, .cancelled hstate⟩
  | failed cause => exact ⟨_, rfl, .failed hstate⟩

/-- The read collects one fault for each task that is not completed, in order. -/
theorem Waits.reports {a : Aspect} {waited : List (Task × Duration)} (hwaits : a.Waits tasks waited)
    (property : String) :
    List.Forall₂ (Reports property) (waited.filter (!·.1.isCompleted))
      (a.tasks.filterMap (taskFault? tasks property)) := by
  rw [Waits] at hwaits
  generalize a.tasks = registrations at hwaits ⊢
  induction hwaits with
  | nil => exact .nil
  | @cons registered entry rest others hfound _ ih =>
    obtain ⟨task, limit⟩ := entry
    obtain ⟨hfound, rfl⟩ := hfound
    cases hcompleted : task.isCompleted with
    | true =>
      rw [List.filter_cons_of_neg (by simp [hcompleted]),
        List.filterMap_cons_none (taskFault?_of_isCompleted hfound hcompleted)]
      exact ih
    | false =>
      obtain ⟨fault, hsaid, head⟩ := exists_reports property hfound hcompleted
      rw [List.filter_cons_of_pos (by simp [hcompleted]), List.filterMap_cons_some hsaid]
      exact .cons head ih

/-- A read that has nothing to report looks the property up. -/
theorem get_of_nil {a : Aspect} (hsilent : a.tasks.filterMap (taskFault? tasks name) = []) :
    a.get tasks name = a.lookUp name := by
  rw [get, wait, hsilent, lazyFault?, lookUp]
  cases a.value? name <;> rfl

/-- A read that has something to report fails with it. -/
theorem get_of_lazyFault? {a : Aspect} {fault : LazyFault}
    (hsaid : lazyFault? name (a.tasks.filterMap (taskFault? tasks name)) = some fault) :
    a.get tasks name = .error (.lazyRead fault) := by
  rw [get, wait, hsaid]
  rfl

/-- What the read fails with: the one fault, or the aggregate of all faults with the engines of the
tasks. Either way the faults of the tasks are what is underneath. -/
theorem lazyFault?_of_reports {undone : List (Task × Duration)} {faults : List LazyFault}
    (hreports : List.Forall₂ (Reports property) undone faults) (hsomeUndone : undone ≠ []) :
    ∃ fault, lazyFault? property faults = some fault ∧ fault.leaves = faults ∧
      (undone.length = 1 → faults = [fault]) ∧
      (2 ≤ undone.length →
        fault = .aggregate property (", ".intercalate (undone.map (·.1.engine))) faults) := by
  cases hreports with
  | nil => exact absurd rfl hsomeUndone
  | @cons task fault rest others head htail =>
    cases htail with
    | nil => exact ⟨fault, rfl, head.leaves, fun _ => rfl, fun hseveral => absurd hseveral (by simp)⟩
    | @cons task' fault' rest' others' hsecond htail =>
      have hreports := List.Forall₂.cons head (List.Forall₂.cons hsecond htail)
      refine ⟨.aggregate property _ _, rfl, leavesOfAll_of_reports hreports, fun hsingle => ?_, fun _ => ?_⟩
      · simp at hsingle
      · rw [engines_of_reports hreports]

/-- No failure of a task is lost or reported twice. The read looks the property up if and only if all tasks
are completed. Otherwise it fails, and underneath its fault is exactly one fault for each task that is not
completed, in the order of registration, which says how far the task has come: the fault itself if there
is one such task, and an aggregate that names all their engines if there are several. A property has a value
for the read if and only if the read succeeds. -/
theorem get_reports_undone {a : Aspect} {waited : List (Task × Duration)} (hwaits : a.Waits tasks waited)
    (name : String) :
    let undone := waited.filter (!·.1.isCompleted)
    (a.get tasks name = a.lookUp name ↔ ∀ task ∈ waited, task.1.isCompleted) ∧
      ((¬∀ task ∈ waited, task.1.isCompleted) → ∃ fault,
        a.get tasks name = .error (.lazyRead fault) ∧
        List.Forall₂ (Reports name) undone fault.leaves ∧
        (undone.length = 1 → fault.leaves = [fault]) ∧
        (2 ≤ undone.length →
          fault = .aggregate name (", ".intercalate (undone.map (·.1.engine))) fault.leaves)) ∧
      (a.hasValue tasks name = true ↔ ∃ value, a.get tasks name = .ok value) := by
  intro undone
  have hreports : List.Forall₂ (Reports name) undone _ := hwaits.reports name
  have hundoneEqNil : undone = [] ↔ ∀ task ∈ waited, task.1.isCompleted := by
    simp [undone, List.filter_eq_nil_iff]
  have hfails : undone ≠ [] → ∃ fault, a.get tasks name = .error (.lazyRead fault) ∧
      List.Forall₂ (Reports name) undone fault.leaves ∧
      (undone.length = 1 → fault.leaves = [fault]) ∧
      (2 ≤ undone.length →
        fault = .aggregate name (", ".intercalate (undone.map (·.1.engine))) fault.leaves) := by
    intro hsomeUndone
    obtain ⟨fault, hsaid, hleaves, hsingle, hseveral⟩ := lazyFault?_of_reports hreports hsomeUndone
    rw [← hleaves] at hreports hsingle hseveral
    exact ⟨fault, get_of_lazyFault? hsaid, hreports, hsingle, hseveral⟩
  refine ⟨⟨fun hlooked => ?_, fun hcompleted => ?_⟩, fun hunfinished => ?_, ?_⟩
  · apply hundoneEqNil.mp
    by_contra hsomeUndone
    obtain ⟨fault, hfailed, -⟩ := hfails hsomeUndone
    exact lookUp_ne_lazyRead a name fault (hlooked.symm.trans hfailed)
  · rw [hundoneEqNil.mpr hcompleted] at hreports
    exact get_of_nil (List.forall₂_nil_left_iff.mp hreports)
  · exact hfails fun hnoneUndone => hunfinished (hundoneEqNil.mp hnoneUndone)
  · rw [hasValue]
    cases a.get tasks name <;> simp [Except.toBool]

/-- Four tasks are registered on the aspect: one is late, one is completed, one has failed and one was
cancelled. The read reports three of them. -/
theorem get_reports_undone_of_mixed :
    let late : Task := ⟨"ip", .pending⟩
    let failed : Task := ⟨"ua", .failed (.element "ua" "no match")⟩
    let cancelled : Task := ⟨"bot", .cancelled⟩
    let tasks : Tasks := ⟨[failed, ⟨"geo", .completed⟩, late, cancelled]⟩
    let limit := Duration.ofMillis 50
    let a : Aspect := { key := "device", tasks := [⟨2, limit⟩, ⟨1, limit⟩, ⟨0, limit⟩, ⟨3, limit⟩] }
    let waited := [(late, limit), (⟨"geo", .completed⟩, limit), (failed, limit), (cancelled, limit)]
    a.Waits tasks waited ∧ ∃ fault,
      a.get tasks "Name" = .error (.lazyRead fault) ∧
      List.Forall₂ (Reports "Name") [(late, limit), (failed, limit), (cancelled, limit)] fault.leaves ∧
      fault = .aggregate "Name" "ip, ua, bot" fault.leaves := by
  intro late failed cancelled tasks limit a waited
  have hwaits : a.Waits tasks waited :=
    .cons ⟨rfl, rfl⟩ (.cons ⟨rfl, rfl⟩ (.cons ⟨rfl, rfl⟩ (.cons ⟨rfl, rfl⟩ .nil)))
  obtain ⟨-, hfails, -⟩ := get_reports_undone hwaits "Name"
  obtain ⟨fault, hfailed, hreports, -, hseveral⟩ := hfails (by decide)
  exact ⟨hwaits, fault, hfailed, hreports, hseveral (by decide)⟩

end Aspect

end EvidenceFlow
