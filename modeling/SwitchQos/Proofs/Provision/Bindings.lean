import SwitchQos.Proofs.Provision.Tasks
import SwitchQos.Provision.Run

namespace SwitchQos

/-! Provisioning a port is a list of bindings, gone through in order, each of them
attempted and recorded by itself. What is bound on the way does not change the list:
it depends on the configuration and on the groups that have been discovered, and only
the ids of profiles are looked up when it is their turn. -/

namespace Exchange

variable {Item Other Result : Type} {step : Item → Exchange (List Result)}

theorem collect_singleton (item : Item) : collect [item] step = step item := by
  have others : collect [] step = .done [] := rfl
  rw [collect, others]
  simp only [bind_eq_bind, pure_eq_done, bind, List.append_nil]
  exact bind_done _

theorem collect_append (first second : List Item) :
    collect (first ++ second) step =
      (collect first step).bind fun early => (collect second step).bind fun late =>
        .done (early ++ late) := by
  induction first with
  | nil =>
      have noItems : collect [] step = .done [] := rfl
      rw [List.nil_append, noItems]
      exact (bind_done _).symm
  | cons item rest induction =>
      rw [List.cons_append, collect, induction, collect]
      simp only [bind_eq_bind, pure_eq_done, bind_assoc, bind, List.append_assoc]

theorem collect_map (change : Other → Item) (items : List Other) :
    collect (items.map change) step = collect items fun item => step (change item) := by
  induction items with
  | nil => rfl
  | cons item rest induction => rw [List.map_cons, collect, collect, induction]

theorem collect_flatMap (parts : Other → List Item) (items : List Other) :
    collect (items.flatMap parts) step = collect items fun item =>
      collect (parts item) step := by
  induction items with
  | nil => rfl
  | cons item rest induction =>
      rw [List.flatMap_cons, collect_append, collect, induction]
      simp only [bind_eq_bind, pure_eq_done]

end Exchange

namespace Task

/-- What is left of a task that sets an object once it has found out which. -/
def setting (name : String) (object : StoreObject) : Task Unit := do
  let _ ← Task.transact name [⟨.set, object⟩]

theorem submit_set_eq {name : String} (data : Except CodecError Authored) :
    (do let _ ← Scheduler.submit name .set data : Task Unit) =
      Task.ofCodec data >>= fun authored => setting name authored.data := by
  cases data <;> rfl

end Task

/-! ## Bindings -/

inductive Attempt where
  | skip (reason : String)
  /-- Bind the profile that goes by the name. -/
  | profile (name : String) (bind : Nat → Task Unit)
  | task (task : Task Unit)

structure Binding where
  target : String
  attempt : Attempt

namespace Binding

def profile? (binding : Binding) : Option String :=
  match binding.attempt with
  | .profile name _ => some name
  | _ => none

def record (names : Names) (binding : Binding) : Exchange (List Outcome) :=
  match binding.attempt with
  | .skip reason => return [.skipped binding.target reason]
  | .profile name bind => do
      let lookUp : Task Nat := ExceptT.mk (.done (names.profileId name))
      return [← (lookUp >>= bind).record binding.target]
  | .task task => return [← task.record binding.target]

end Binding

/-! ## Maps -/

def mapBinding (switchId : Nat) (names : Names) (port : Port) (direction : Direction)
    (mapType : MapType) (tag : String) : Binding where
  target := port.name ++ " " ++ direction.name ++ " " ++ mapType.name ++ " " ++ tag
  attempt :=
    if mapType.isProvisionable then
      .task (bindMap switchId names port direction mapType tag)
    else .skip notProvisioned

def mapBindings (switchId : Nat) (names : Names) (port : Port) (node : PortNode) :
    List Binding :=
  (node.ingress.map fun row => mapBinding switchId names port .ingress row.1 row.2) ++
    node.egress.map fun row => mapBinding switchId names port .egress row.1 row.2

theorem bindPortMaps_eq (switchId : Nat) (names : Names) (port : Port) (node : PortNode) :
    bindPortMaps switchId names port node =
      Exchange.collect (mapBindings switchId names port node) (Binding.record names) := by
  have step (direction : Direction) (bindings : MapBindings) :
      bindDirection switchId names port direction bindings =
        Exchange.collect (bindings.map fun row =>
          mapBinding switchId names port direction row.1 row.2)
            (Binding.record names) := by
    rw [Exchange.collect_map]
    refine congrArg (Exchange.collect bindings) (funext fun row => ?_)
    rcases row with ⟨mapType, tag⟩
    simp only [mapBinding]
    cases provisionable : mapType.isProvisionable <;> rfl
  rw [mapBindings, Exchange.collect_append, ← step, ← step]
  rfl

/-! ## Trees -/

namespace Scheduler

section Lists

variable (scheduler : Scheduler) (port : Port) (tree : SchedulerTree)

def profileBindings (target : String) (bind : Nat → Task Unit) :
    Option String → List Binding
  | none => []
  | some profile => [⟨target ++ " profile " ++ profile, .profile profile bind⟩]

def bindChildren (level : SchedulerLevel) (index : GroupIndex) (group : Nat)
    (children : List Nat) : Task Unit := do
  let ids ← scheduler.resolveChildren port tree level index children
  scheduler.setChildren group ids

def childrenBindings (level : SchedulerLevel) (index : GroupIndex) (target : String)
    (group : Nat) : Option (List Nat) → List Binding
  | none => []
  | some children =>
      [⟨target ++ " children",
        .task (scheduler.bindChildren port tree level index group children)⟩]

def groupBindings (level : SchedulerLevel) (index : GroupIndex) (group : GroupNode) :
    List Binding :=
  let target := groupTarget port level group
  match index.get? level.level group.number with
  | some id =>
      profileBindings target (scheduler.bindGroupProfile id) group.profile ++
        scheduler.childrenBindings port tree level index target id group.children
  | none =>
      if level.platformMayOmit then [⟨target, .skip "not provided by the platform"⟩]
      else [⟨target, .task (throw (shortfall port index level.level group.number))⟩]

def queueBindings (queue : QueueNode) : List Binding :=
  let key : QueueKey := ⟨port.ifindex, queue.queueType, queue.number⟩
  profileBindings (port.name ++ " " ++ key.text)
    (scheduler.bindQueueProfile key) queue.profile

/-- `index` is `none` when the groups of the port could not be read. -/
def levelBindings (index : Option GroupIndex) (level : SchedulerLevel) : List Binding :=
  if level.leaf then level.queues.flatMap (scheduler.queueBindings port)
  else
    match index with
    | some index => level.groups.flatMap (scheduler.groupBindings port tree level index)
    | none => level.groups.map fun group =>
        ⟨groupTarget port level group, .skip "scheduler groups not discovered"⟩

def treeBindings : Except ProvisionError GroupIndex → List Binding
  | .ok index => tree.levels.flatMap (scheduler.levelBindings port tree (some index))
  | .error error =>
      ⟨port.name ++ " scheduler groups", .task (throw error)⟩ ::
        tree.levels.flatMap (scheduler.levelBindings port tree none)

end Lists

variable {scheduler : Scheduler} {names : Names} {port : Port} {tree : SchedulerTree}
  {level : SchedulerLevel}

theorem collect_profileBindings (target : String) (bind : Nat → Task Unit)
    (name : String) :
    Exchange.collect (profileBindings target bind (some name)) (Binding.record names) =
      ((ExceptT.mk (.done (names.profileId name)) >>= bind : Task Unit).record
        (target ++ " profile " ++ name)).bind fun outcome => .done [outcome] :=
  Exchange.collect_singleton _

theorem applyProfile_eq (target : String) (group : Nat) (profile : Option String) :
    scheduler.applyProfile names target group profile =
      Exchange.collect (profileBindings target (scheduler.bindGroupProfile group) profile)
        (Binding.record names) := by
  cases profile with
  | none => rfl
  | some name => exact (collect_profileBindings _ _ _).symm

theorem applyChildren_eq (index : GroupIndex) (target : String) (group : Nat)
    (children : Option (List Nat)) :
    scheduler.applyChildren port tree level index target group children =
      Exchange.collect (scheduler.childrenBindings port tree level index
        target group children) (Binding.record names) := by
  cases children with
  | none => rfl
  | some children => exact (Exchange.collect_singleton _).symm

theorem applyGroup_eq (index : GroupIndex) (group : GroupNode) :
    scheduler.applyGroup names port tree level index group =
      Exchange.collect (scheduler.groupBindings port tree level index group)
        (Binding.record names) := by
  rw [applyGroup, groupBindings]
  cases index.get? level.level group.number with
  | some id =>
      simp only [Exchange.collect_append, ← applyProfile_eq, ← applyChildren_eq]
      rfl
  | none => cases level.platformMayOmit <;> rfl

theorem applyQueue_eq (queue : QueueNode) :
    scheduler.applyQueue names port queue =
      Exchange.collect (scheduler.queueBindings port queue) (Binding.record names) := by
  rw [applyQueue, queueBindings]
  cases queue.profile with
  | none => rfl
  | some name => exact (collect_profileBindings _ _ _).symm

theorem applyLevel_eq (index : Option GroupIndex) :
    scheduler.applyLevel names port tree index level =
      Exchange.collect (scheduler.levelBindings port tree index level)
        (Binding.record names) := by
  unfold applyLevel levelBindings
  split
  · rw [Exchange.collect_flatMap]
    exact congrArg _ (funext applyQueue_eq)
  · cases index with
    | some index =>
        simp only [Exchange.collect_flatMap]
        exact congrArg _ (funext (applyGroup_eq index))
    | none =>
        simp only [Exchange.collect_map]
        induction level.groups with
        | nil => rfl
        | cons group rest induction =>
            rw [Exchange.collect, ← induction]
            rfl

/-- A tree is applied by discovering the groups and going through its bindings. -/
theorem applyTree_eq :
    scheduler.applyTree names port tree =
      (scheduler.readGroups port).run.bind fun discovered =>
        Exchange.collect (scheduler.treeBindings port tree discovered)
          (Binding.record names) := by
  have levels (index : Option GroupIndex) :
      Exchange.collect tree.levels (scheduler.applyLevel names port tree index) =
        Exchange.collect (tree.levels.flatMap (scheduler.levelBindings port tree index))
          (Binding.record names) := by
    rw [Exchange.collect_flatMap]
    exact congrArg _ (funext fun level => applyLevel_eq index)
  refine congrArg _ (funext fun discovered => ?_)
  cases discovered with
  | ok index => exact levels (some index)
  | error error =>
      simp only [treeBindings, Exchange.collect, ← levels]
      rfl

end Scheduler

end SwitchQos
