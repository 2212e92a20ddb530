import SwitchQos.Proofs.Provision.TreeCourses
import SwitchQos.Provision.Run

namespace SwitchQos

/-! A rerun on some interfaces first looks every name up and only then asks the store for
anything. So the first name that cannot be resolved decides the error, and the store is
left untouched. -/

namespace Turn

def IsListing : Turn → Prop
  | .listed _ _ => True
  | .asked _ _ | .submitted _ _ => False

end Turn

/-! ## Completion -/

namespace Exchange

variable {Result Other Item : Type}

def Completes (exchange : Exchange Result) : Prop := exchange.Always fun _ _ => True

theorem Completes.bind {exchange : Exchange Result} {next : Result → Exchange Other}
    (completes : exchange.Completes) (later : ∀ value, (next value).Completes) :
    (exchange.bind next).Completes :=
  Always.bind completes fun _ value _ => later value

theorem completes_collect {items : List Item} {step : Item → Exchange (List Result)}
    (each : ∀ item, (step item).Completes) : (collect items step).Completes :=
  (always_collect fun item _ => each item).mono fun _ _ _ => trivial

end Exchange

namespace Task

variable {Result Other : Type}

theorem completes_bind {task : Task Result} {next : Result → Task Other}
    (completes : task.run.Completes) (later : ∀ value, (next value).run.Completes) :
    (task >>= next).run.Completes :=
  always_bind completes (fun _ _ _ => trivial) fun _ value _ => later value

end Task

namespace Scheduler

open Exchange SwitchQos.Task

variable {scheduler : Scheduler}

theorem completes_createProfile {tag : String} {attrs : Directory String String} :
    (scheduler.createProfile tag attrs).run.Completes := by
  -- The batch is the only turn; reading the id from the reply takes none.
  have submits (authored : Authored) :
      (Task.transact ("scheduler profile " ++ tag)
        [⟨.create, authored.data⟩]).run.Completes :=
    fun _ => trivial
  exact completes_bind (completes_bind trivial submits) fun _ =>
    completes_bind trivial fun _ =>
    completes_bind trivial fun _ => completes_bind trivial fun _ => trivial

theorem completes_applyTree {names : Names} {port : Port} {tree : SchedulerTree} :
    (scheduler.applyTree names port tree).Completes := by
  rw [applyTree_eq_nodes]
  refine Completes.bind (always_readGroups.mono fun _ _ _ => trivial) fun found => ?_
  refine Completes.bind (completes_collect fun node => ?_) fun _ => trivial
  exact always_applyNode.mono fun _ _ _ => trivial

end Scheduler

/-! ## Names -/

namespace Port

def named? (name : String) (listing : List Port) : Option Port :=
  listing.find? fun port => port.name = name

theorem name_of_named? {name : String} {listing : List Port} {port : Port}
    (found : named? name listing = some port) : port.name = name :=
  of_decide_eq_true (List.find?_some
    (p := fun port : Port => decide (port.name = name)) found)

/-- The name is found, and the CPU's interfaces are listed only if it is not
among the others. -/
inductive Resolves (name : String) : LookUp Port → Prop
  | frontPanel {listing : List Port} {port : Port}
      (found : named? name listing = some port) :
      Resolves name ⟨[.listed .frontPanel (.ok listing)], port⟩
  | cpu {listing others : List Port} {port : Port} (missing : named? name listing = none)
      (found : named? name others = some port) :
      Resolves name ⟨[.listed .frontPanel (.ok listing), .listed .cpu (.ok others)], port⟩

inductive Unresolved (name : String) : List Turn → ProvisionError → Prop
  | unknown {listing others : List Port} (missing : named? name listing = none)
      (nowhere : named? name others = none) :
      Unresolved name [.listed .frontPanel (.ok listing), .listed .cpu (.ok others)]
        (.portUnavailable name)
  | frontPanelFailed (cause : StoreError) :
      Unresolved name [.listed .frontPanel (.error cause)]
        (.queryFailed ("interface " ++ name) cause.message)
  | cpuFailed {listing : List Port} (missing : named? name listing = none)
      (cause : StoreError) :
      Unresolved name [.listed .frontPanel (.ok listing), .listed .cpu (.error cause)]
        (.queryFailed ("interface " ++ name) cause.message)

theorem Resolves.name_eq {name : String} {lookUp : LookUp Port}
    (resolves : Resolves name lookUp) :
    lookUp.value.name = name := by
  cases resolves with
  | frontPanel found | cpu _ found => exact name_of_named? found

theorem Resolves.isListing {name : String} {lookUp : LookUp Port}
    (resolves : Resolves name lookUp) : ∀ turn ∈ lookUp.turns, turn.IsListing := by
  cases resolves <;> simp [Turn.IsListing]

theorem Unresolved.isListing {name : String} {turns : List Turn} {error : ProvisionError}
    (unresolved : Unresolved name turns error) : ∀ turn ∈ turns, turn.IsListing := by
  cases unresolved <;> simp [Turn.IsListing]

end Port

namespace Exchange

theorem always_askPorts {interfaceClass : InterfaceClass} :
    (askPorts interfaceClass).Always fun turns reply =>
      turns = [.listed interfaceClass reply] :=
  fun _ => rfl

theorem always_findPort (name : String) :
    (findPort name).Always fun turns found =>
      (∃ port, found = .ok (some port) ∧ Port.Resolves name ⟨turns, port⟩) ∨
      (found = .ok none ∧ Port.Unresolved name turns (.portUnavailable name)) ∨
      ∃ cause, found = .error cause ∧
        Port.Unresolved name turns
          (.queryFailed ("interface " ++ name) cause.message) := by
  refine always_askPorts.bind ?_
  rintro _ reply rfl
  cases reply with
  | error cause => exact .inr (.inr ⟨cause, rfl, .frontPanelFailed cause⟩)
  | ok listing =>
      simp only [ExceptT.bindCont]
      split
      case h_1 port inPanel => exact .inl ⟨port, rfl, .frontPanel inPanel⟩
      case h_2 inPanel =>
        refine always_askPorts.bind ?_
        rintro _ reply rfl
        cases reply with
        | error cause => exact .inr (.inr ⟨cause, rfl, .cpuFailed inPanel cause⟩)
        | ok others =>
            cases inOthers : Port.named? name others with
            | some port =>
                exact .inl ⟨port, congrArg Except.ok inOthers, .cpu inPanel inOthers⟩
            | none =>
                exact .inr (.inl ⟨congrArg Except.ok inOthers, .unknown inPanel inOthers⟩)

end Exchange

namespace Provisioner

open Exchange SwitchQos.Task

variable {provisioner : Provisioner}

theorem always_resolve (name : String) :
    (do let port ← resolve ("interface " ++ name) name
        Task.require port (.portUnavailable name) : Task Port).run.Always
      (Finding Port.Resolves Port.Unresolved name) := by
  have looked : (resolve ("interface " ++ name) name).run =
      (findPort name).bind fun found =>
      .done (found.mapError fun cause =>
        .queryFailed ("interface " ++ name) cause.message) := rfl
  rw [Task.run_bind, looked, Exchange.bind_assoc]
  refine (always_findPort name).bind ?_
  rintro turns _ (⟨port, rfl, resolves⟩ | ⟨rfl, unresolved⟩ | ⟨cause, rfl, unresolved⟩)
  · change Port.Resolves name ⟨turns ++ [], port⟩
    rwa [List.append_nil]
  · change Port.Unresolved name (turns ++ []) _
    rwa [List.append_nil]
  · change Port.Unresolved name (turns ++ []) _
    rwa [List.append_nil]

theorem always_resolveAll (names : List String) :
    (resolveAll names).run.Always (InRow Port.Resolves Port.Unresolved names) :=
  always_mapM fun name _ => always_resolve name

/-! ## What follows the names -/

theorem completes_createProfiles {nodes : List ProfileNode} {names : Names} :
    (provisioner.createProfiles nodes names).Completes := by
  induction nodes generalizing names with
  | nil => trivial
  | cons node rest induction =>
      exact Scheduler.completes_createProfile.bind fun _ =>
        induction.bind fun _ => trivial

theorem completes_createAllProfiles {nodes : List GlobalsNode} {names : Names} :
    (provisioner.createAllProfiles nodes names).Completes := by
  induction nodes generalizing names with
  | nil => trivial
  | cons node rest induction =>
      exact completes_createProfiles.bind fun _ => induction.bind fun _ => trivial

theorem always_initInterface {names : Names} {tree : Option SchedulerTree} {port : Port} :
    (provisioner.initInterface names tree port).Always fun _ phase =>
      phase.name = "interface " ++ port.name := by
  cases tree with
  | none => exact rfl
  | some tree => exact Always.bind Scheduler.completes_applyTree fun _ _ _ => rfl

theorem always_initEach {names : Names} {tree : Option SchedulerTree}
    (ports : List Port) :
    (collect ports fun port =>
      do return [← provisioner.initInterface names tree port]).Always
      fun _ phases => phases.map PhaseReport.name =
        (ports.map Port.name).map ("interface " ++ ·) := by
  induction ports with
  | nil => exact rfl
  | cons port rest induction =>
      have own : (do return [← provisioner.initInterface names tree port] :
        Exchange _).Always
          fun _ phases => phases.map PhaseReport.name = ["interface " ++ port.name] :=
        Always.map _ (always_initInterface.mono fun _ _ isOwn => congrArg (· :: []) isOwn)
      refine own.bind fun _ first isOwn =>
        Always.map _ (induction.mono fun _ others inOrder => ?_)
      rw [List.map_append, isOwn, inOrder, List.map_cons, List.map_cons,
        List.singleton_append]

/-! ## Reruns -/

inductive RerunCourse (names : List String) : List Turn →
    Except ProvisionError RunReport → Prop
  /-- Some name is the first that cannot be resolved, and nothing is done after that. -/
  | unresolved {earlier later : List String} {name : String}
      {lookUps : List (LookUp Port)} {turns : List Turn} {error : ProvisionError}
      (split : names = earlier ++ name :: later)
      (resolved : List.Forall₂ Port.Resolves earlier lookUps)
      (unresolved : Port.Unresolved name turns error) :
      RerunCourse names (lookUps.flatMap LookUp.turns ++ turns) (.error error)
  /-- All names are resolved before anything else is done, and then each has its phase. -/
  | finished {lookUps : List (LookUp Port)} {later : List Turn} {outcomes : List Outcome}
      {phases : List PhaseReport} (resolved : List.Forall₂ Port.Resolves names lookUps)
      (inOrder : phases.map PhaseReport.name = names.map ("interface " ++ ·)) :
      RerunCourse names (lookUps.flatMap LookUp.turns ++ later)
        (.ok ⟨⟨"scheduler profiles", outcomes⟩ :: phases⟩)

theorem isListing_of_resolved {names : List String} {lookUps : List (LookUp Port)}
    (resolved : List.Forall₂ Port.Resolves names lookUps) :
    ∀ turn ∈ lookUps.flatMap LookUp.turns, turn.IsListing := by
  induction resolved with
  | nil => exact List.forall_mem_nil _
  | cons resolves _ induction =>
      exact List.forall_mem_append.mpr ⟨resolves.isListing, induction⟩

theorem RerunCourse.isListing_of_error {names : List String} {turns : List Turn}
    {error : ProvisionError} (course : RerunCourse names turns (.error error)) :
    ∀ turn ∈ turns, turn.IsListing := by
  cases course with
  | unresolved split resolved unresolved =>
      exact List.forall_mem_append.mpr
        ⟨isListing_of_resolved resolved, unresolved.isListing⟩

theorem names_of_resolved {names : List String} {lookUps : List (LookUp Port)}
    (resolved : List.Forall₂ Port.Resolves names lookUps) :
    (lookUps.map LookUp.value).map Port.name = names := by
  induction resolved with
  | nil => rfl
  | cons resolves _ induction => exact congrArg₂ List.cons resolves.name_eq induction

/-- However the store replies, a rerun comes to an end and takes one of its courses: the
first name that cannot be resolved is the error, and then the interfaces have been listed
and nothing has been asked of the store. Otherwise each name has a phase, in order. -/
theorem initInterfaces_resolves_first (provisioner : Provisioner) (config : Config)
    (names : List String) :
    (provisioner.initInterfaces config names).run.Always fun turns result =>
      RerunCourse names turns result ∧
        ∀ error, result = .error error → ∀ turn ∈ turns, turn.IsListing := by
  have takesCourse : (provisioner.initInterfaces config names).run.Always
      (RerunCourse names) := by
    refine always_bind (always_resolveAll names)
      (fun _ error row => ?_) fun _ ports row => ?_
    · cases row with
      | failed lookUps split resolved unresolved =>
          exact .unresolved split resolved unresolved
    · cases row with
      | found lookUps resolved =>
          refine Always.map Except.ok
              (Always.bind completes_createAllProfiles fun _ created _ =>
            Always.map _ ((always_initEach _).mono fun _ phases inOrder =>
              .finished resolved ?_))
          rw [inOrder, names_of_resolved resolved]
  refine takesCourse.mono fun turns result course => ⟨course, ?_⟩
  rintro error rfl
  exact course.isListing_of_error

end Provisioner

end SwitchQos
