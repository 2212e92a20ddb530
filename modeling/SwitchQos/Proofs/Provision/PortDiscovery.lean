import SwitchQos.Proofs.Provision.Footprint
import SwitchQos.Proofs.Store.Listings

namespace SwitchQos

/-! Which ports are initialised, told by the listings alone. The loop goes on until a
listing brings no port of its class that was not heard of before, and then each port has
been initialised once, where it was first heard of. Failed listings bring nothing, and as
initialising a port asks for no listing, the store meanwhile does not matter. -/

/-! ## First ports -/

namespace Port

def firsts : List Port → List Port
  | [] => []
  | port :: rest => port :: (firsts rest).filter fun other => other.ifindex ≠ port.ifindex

theorem ifindex_firsts (ports : List Port) (ifindex : Nat) :
    ifindex ∈ (firsts ports).map (·.ifindex) ↔ ifindex ∈ ports.map (·.ifindex) := by
  induction ports with
  | nil => rfl
  | cons port rest induction =>
      by_cases same : ifindex = port.ifindex
      · simp [firsts, same]
      · simp only [firsts, List.map_cons, List.mem_cons, same, false_or, ← induction]
        simp only [List.mem_map, List.mem_filter, decide_eq_true_eq, ne_eq]
        refine exists_congr fun other => and_congr_left fun isIt => ?_
        exact and_iff_left (isIt ▸ same)

theorem nodup_firsts (ports : List Port) : ((firsts ports).map (·.ifindex)).Nodup := by
  induction ports with
  | nil => exact List.nodup_nil
  | cons port rest induction =>
      rw [firsts, List.map_cons, List.nodup_cons]
      refine ⟨?_, induction.sublist (List.filter_sublist.map _)⟩
      simp

theorem firsts_sublist (ports : List Port) : (firsts ports).Sublist ports := by
  induction ports with
  | nil => exact .slnil
  | cons port rest induction => exact (List.filter_sublist.trans induction).cons_cons port

theorem firsts_append (earlier later : List Port) :
    firsts (earlier ++ later) = firsts earlier ++
      (firsts later).filter fun port => port.ifindex ∉ earlier.map (·.ifindex) := by
  induction earlier with
  | nil => simp [firsts]
  | cons port rest induction =>
      rw [List.cons_append, firsts, firsts, induction, List.filter_append,
        List.filter_filter, List.cons_append]
      simp

def unseen (seen : List Nat) (ports : List Port) : List Port :=
  (firsts ports).filter fun port => port.ifindex ∉ seen

theorem unseen_cons_of_mem {seen : List Nat} {port : Port} (known : port.ifindex ∈ seen)
    (rest : List Port) : unseen seen (port :: rest) = unseen seen rest := by
  rw [unseen, firsts, List.filter_cons_of_neg (by simpa using known), List.filter_filter]
  refine List.filter_congr fun other _ => ?_
  by_cases same : other.ifindex = port.ifindex <;> simp [same, known]

theorem unseen_cons_of_not_mem {seen : List Nat} {port : Port} (new : port.ifindex ∉ seen)
    (rest : List Port) :
    unseen seen (port :: rest) = port :: unseen (port.ifindex :: seen) rest := by
  rw [unseen, firsts, List.filter_cons_of_pos (by simpa using new), List.filter_filter]
  congr 1
  refine List.filter_congr fun other _ => ?_
  simp [Bool.and_comm]

theorem unseen_congr {seen others : List Nat}
    (same : ∀ ifindex, ifindex ∈ others ↔ ifindex ∈ seen)
    (ports : List Port) : unseen others ports = unseen seen ports := by
  simp only [unseen, same]

theorem unseen_append (seen : List Nat) (earlier later : List Port) :
    unseen seen (earlier ++ later) =
      unseen seen earlier ++ unseen (earlier.map (·.ifindex) ++ seen) later := by
  rw [unseen, firsts_append, List.filter_append, List.filter_filter, unseen, unseen]
  congr 1
  refine List.filter_congr fun port _ => ?_
  simp [Bool.and_comm]

theorem ifindex_unseen (seen : List Nat) (ports : List Port) (ifindex : Nat) :
    ifindex ∈ (unseen seen ports).map (·.ifindex) ↔
      ifindex ∉ seen ∧ ifindex ∈ ports.map (·.ifindex) := by
  rw [← ifindex_firsts ports]
  simp only [unseen, List.mem_map, List.mem_filter, decide_eq_true_eq]
  constructor
  · rintro ⟨port, ⟨isFirst, new⟩, rfl⟩
    exact ⟨new, port, isFirst, rfl⟩
  · rintro ⟨new, port, isFirst, rfl⟩
    exact ⟨port, ⟨isFirst, new⟩, rfl⟩

theorem unseen_eq_nil_iff {seen : List Nat} {ports : List Port} :
    unseen seen ports = [] ↔ ∀ port ∈ ports, port.ifindex ∈ seen := by
  rw [← List.map_eq_nil_iff (f := (·.ifindex)), List.eq_nil_iff_forall_not_mem]
  simp only [ifindex_unseen, not_and']
  constructor
  · intro known port member
    exact not_not.mp (known port.ifindex (List.mem_map_of_mem member))
  · rintro known _ isIndex new
    rcases List.mem_map.mp isIndex with ⟨port, member, rfl⟩
    exact new (known port member)

end Port

/-! ## Listings in order -/

def portsOf (interfaceClass : InterfaceClass) : PortsReply → List Port
  | .ok listing => listing.filter (·.isOf interfaceClass)
  | .error _ => []

/-- The tracker lets through the first ports of its class that it has not seen. -/
theorem PortTracker.accept_eq (tracker : PortTracker) (listing : List Port) :
    tracker.accept listing =
      let new := Port.unseen tracker.seen (portsOf tracker.interfaceClass (.ok listing))
      (new, { tracker with seen := (new.map (·.ifindex)).reverse ++ tracker.seen }) := by
  rw [portsOf]
  induction listing generalizing tracker with
  | nil => rfl
  | cons port rest induction =>
      rw [accept]
      by_cases isOf : port.isOf tracker.interfaceClass = true
      · by_cases known : port.ifindex ∈ tracker.seen
        · rw [if_neg (by simp [known]), induction,
            List.filter_cons_of_pos (by exact isOf), Port.unseen_cons_of_mem known]
        · rw [if_pos (by simp [isOf, known]), induction,
            List.filter_cons_of_pos (by exact isOf), Port.unseen_cons_of_not_mem known]
          simp
      · rw [if_neg (by simp [isOf]), induction, List.filter_cons_of_neg (by exact isOf)]

theorem PortTracker.listed_of_mem_accept {tracker : PortTracker}
    {listing : List Port} {port : Port} (member : port ∈ (tracker.accept listing).1) :
    port ∈ listing ∧ port.isOf tracker.interfaceClass = true := by
  rw [accept_eq] at member
  exact List.mem_filter.mp ((Port.firsts_sublist _).subset (List.mem_filter.mp member).1)

section Replies

variable (interfaceClass : InterfaceClass) (replies : Nat → PortsReply)

def heard (count : Nat) : List Port :=
  (List.range count).flatMap fun reply => portsOf interfaceClass (replies reply)

/-- After some port of the class was heard of, the reply lists no other one. -/
structure Repeats (count : Nat) : Prop where
  succeeded : (replies count).isOk = true
  known : ∀ port ∈ portsOf interfaceClass (replies count),
    port.ifindex ∈ (heard interfaceClass replies count).map (·.ifindex)
  begun : heard interfaceClass replies count ≠ []

instance (count : Nat) : Decidable (Repeats interfaceClass replies count) :=
  decidable_of_iff ((replies count).isOk = true ∧
      (∀ port ∈ portsOf interfaceClass (replies count),
        port.ifindex ∈ (heard interfaceClass replies count).map (·.ifindex)) ∧
      heard interfaceClass replies count ≠ [])
    ⟨fun both => ⟨both.1, both.2.1, both.2.2⟩,
      fun repeats => ⟨repeats.succeeded, repeats.known, repeats.begun⟩⟩

def StopsAt (count : Nat) : Prop :=
  Repeats interfaceClass replies count ∧
    ∀ earlier < count, ¬Repeats interfaceClass replies earlier

instance (count : Nat) : Decidable (StopsAt interfaceClass replies count) :=
  inferInstanceAs (Decidable (_ ∧ _))

variable {interfaceClass replies} in
theorem Repeats.exists_stopsAt {count : Nat}
    (repeats : Repeats interfaceClass replies count) :
    ∃ stop ≤ count, StopsAt interfaceClass replies stop := by
  have some : ∃ count, Repeats interfaceClass replies count := ⟨count, repeats⟩
  exact ⟨Nat.find some, Nat.find_min' some repeats, Nat.find_spec some,
    fun earlier before => Nat.find_min some before⟩

end Replies

section Replies

variable {interfaceClass : InterfaceClass} {replies : Nat → PortsReply}
  {count later : Nat}

theorem heard_succ :
    heard interfaceClass replies (count + 1) =
      heard interfaceClass replies count ++ portsOf interfaceClass (replies count) := by
  simp [heard, List.range_succ]

theorem exists_heard_append (within : count ≤ later) :
    ∃ rest, heard interfaceClass replies later =
      heard interfaceClass replies count ++ rest := by
  induction later, within using Nat.le_induction with
  | base => exact ⟨[], (List.append_nil _).symm⟩
  | succ later _ induction =>
      rcases induction with ⟨rest, same⟩
      exact ⟨rest ++ portsOf interfaceClass (replies later), by
        rw [heard_succ, same, List.append_assoc]⟩

def remaining (interfaceClass : InterfaceClass) (replies : Nat → PortsReply)
    (count later : Nat) : List Port :=
  Port.unseen ((heard interfaceClass replies count).map (·.ifindex))
    (heard interfaceClass replies later)

theorem remaining_zero :
    remaining interfaceClass replies 0 later =
      Port.firsts (heard interfaceClass replies later) := by
  simp [remaining, Port.unseen, heard]

theorem remaining_self : remaining interfaceClass replies count count = [] :=
  Port.unseen_eq_nil_iff.mpr fun _ member => List.mem_map_of_mem member

theorem remaining_succ (within : count < later) :
    remaining interfaceClass replies count later =
      Port.unseen ((heard interfaceClass replies count).map (·.ifindex))
          (portsOf interfaceClass (replies count)) ++
        remaining interfaceClass replies (count + 1) later := by
  rcases @exists_heard_append interfaceClass replies _ _ within with ⟨rest, same⟩
  have old := @remaining_self interfaceClass replies count
  have oldNext := @remaining_self interfaceClass replies (count + 1)
  rw [remaining] at old oldNext
  rw [remaining, remaining, same, Port.unseen_append _ _ rest,
    Port.unseen_append _ _ rest,
    oldNext, List.nil_append, heard_succ, Port.unseen_append, old, List.nil_append]
  congr 1 <;> refine Port.unseen_congr (fun ifindex => ?_) _
  · simp
  · simp only [List.map_append, List.mem_append]
    tauto

end Replies

/-! ## The loop -/

/-- Who asks for no listing cannot tell the difference. -/
theorem Conduct.simulates_listing {State : Type} {conduct : Conduct}
    (same : ∀ object other, conduct.Sets object other → other = object)
    (responder : Responder State) (interfaceClass : InterfaceClass)
    (replies : Nat → PortsReply) (count : Nat) :
    conduct.Simulates responder (responder.listing interfaceClass replies)
      fun left right => right = (left, count) where
  query := by
    rintro template left _ - rfl
    have reflexive :=
      fun answers => List.forall₂_same.mpr fun answer (_ : answer ∈ answers) =>
      conduct.alike_self answer
    exact ⟨.refl reflexive _, rfl⟩
  set := by
    rintro object other left _ sets rfl
    rw [same object other sets]
    exact ⟨.refl (fun _ => trivial) _, rfl⟩

namespace Provisioner

open Exchange

variable {State : Type} (provisioner : Provisioner) (names : Names) (node : PortNode)

theorem run_askPorts_bind {Result : Type} (responder : Responder State)
    (interfaceClass : InterfaceClass) (next : PortsReply → Exchange Result)
    (state : State) :
    ((askPorts interfaceClass).bind next).run responder state =
      (next (responder.listPorts interfaceClass state).1).run responder
        (responder.listPorts interfaceClass state).2 := rfl

def initEach (ports : List Port) : Exchange (List PhaseReport) :=
  collect ports fun port => do return [← provisioner.initPort names node port]

variable {provisioner names node} in
theorem initEach_ends_cons_iff {responder : Responder State} {port : Port}
    {rest : List Port} {before after : State} {phases : List PhaseReport} :
    (provisioner.initEach names node (port :: rest)).Ends responder before phases after ↔
      ∃ phase middle others,
        (provisioner.initPort names node port).Ends responder before phase middle ∧
        (provisioner.initEach names node rest).Ends responder middle others after ∧
        phases = phase :: others := by
  constructor
  · intro ends
    rcases ends_bind_iff.mp ends with ⟨own, middle, one, ends⟩
    rcases ends_bind_iff.mp ends with ⟨others, last, later, done⟩
    rcases ends_done_iff.mp done with ⟨rfl, rfl⟩
    rcases ends_bind_iff.mp one with ⟨phase, _, first, done⟩
    rcases ends_done_iff.mp done with ⟨rfl, rfl⟩
    exact ⟨phase, _, others, first, later, rfl⟩
  · rintro ⟨phase, middle, others, first, later, rfl⟩
    have one := first.map fun phase => [phase]
    exact one.bind (later.map fun others => [phase] ++ others)

variable {provisioner names node} in
theorem initEach_ends_append_iff {responder : Responder State} {earlier later : List Port}
    {before after : State} {phases : List PhaseReport} :
    (provisioner.initEach names node (earlier ++ later)).Ends responder
      before phases after ↔
      ∃ first middle last,
        (provisioner.initEach names node earlier).Ends responder before first middle ∧
        (provisioner.initEach names node later).Ends responder middle last after ∧
        phases = first ++ last := by
  rw [initEach, collect_append]
  constructor
  · intro ends
    rcases ends_bind_iff.mp ends with ⟨first, middle, firstEnds, ends⟩
    rcases ends_bind_iff.mp ends with ⟨last, _, lastEnds, done⟩
    rcases ends_done_iff.mp done with ⟨rfl, rfl⟩
    exact ⟨first, middle, last, firstEnds, lastEnds, rfl⟩
  · rintro ⟨first, middle, last, firstEnds, lastEnds, rfl⟩
    exact firstEnds.bind (lastEnds.map fun last => first ++ last)

theorem yields_initPort (port : Port) :
    (provisioner.initPort names node port).Yields fun phase =>
      phase.name = "port " ++ port.name :=
  yields_bind fun _ => yields_bind fun _ => rfl

/-- Initialising ports comes to its end, and in the same way whatever the listings. -/
theorem initEach_ends (responder : Responder State) (interfaceClass : InterfaceClass)
    (replies : Nat → PortsReply) (ports : List Port) (before : State) (count : Nat) :
    ∃ phases after, (provisioner.initEach names node ports).Ends responder
      before phases after ∧
      (provisioner.initEach names node ports).Ends
        (responder.listing interfaceClass replies) (before, count) phases (after, count) ∧
      phases.map (·.name) = ports.map fun port => "port " ++ port.name := by
  induction ports generalizing before with
  | nil =>
      exact ⟨[], before, ends_done_iff.mpr ⟨rfl, rfl⟩, ends_done_iff.mpr ⟨rfl, rfl⟩, rfl⟩
  | cons port rest induction =>
      let footprint := Footprint.ofPort provisioner.switchId names node port Set.univ
      have simulates := @Conduct.simulates_listing _ footprint.conduct
        (fun _ _ sets => sets.same fun _ _ same => same) responder
        interfaceClass replies count
      rcases (Footprint.parallel_initPort provisioner names node port).ends
          simulates rfl with
        ⟨phase, middle, _, ends, endsListing, rfl⟩
      rcases induction middle with ⟨phases, after, others, othersListing, named⟩
      refine ⟨phase :: phases, after, ?_, ?_, ?_⟩
      · exact initEach_ends_cons_iff.mpr ⟨_, _, _, ends, others, rfl⟩
      · exact initEach_ends_cons_iff.mpr ⟨_, _, _, endsListing, othersListing, rfl⟩
      · rw [List.map_cons, List.map_cons, named]
        exact congrArg (· :: _)
          ((yields_initPort provisioner names node port).of_ends ends)

section Loop

variable {responder : Responder State} {interfaceClass : InterfaceClass}
  {replies : Nat → PortsReply}

def Follows (tracker : PortTracker) (interfaceClass : InterfaceClass)
    (replies : Nat → PortsReply) (count : Nat) : Prop :=
  tracker.interfaceClass = interfaceClass ∧
    ∀ ifindex, ifindex ∈ tracker.seen ↔
      ifindex ∈ (heard interfaceClass replies count).map (·.ifindex)

variable {provisioner names node} {tracker : PortTracker} {polls count : Nat}
  {before : State}

theorem Follows.accept {listing : List Port}
    (follows : Follows tracker interfaceClass replies count)
    (replied : replies count = .ok listing) :
    (tracker.accept listing).1 =
      Port.unseen ((heard interfaceClass replies count).map (·.ifindex))
        (portsOf interfaceClass (replies count)) ∧
      Follows (tracker.accept listing).2 interfaceClass replies (count + 1) := by
  rcases follows with ⟨sameClass, sameSeen⟩
  have new := Port.unseen_congr (fun ifindex => (sameSeen ifindex))
    (portsOf interfaceClass (replies count))
  rw [PortTracker.accept_eq, sameClass, ← replied]
  dsimp only
  rw [new]
  refine ⟨rfl, rfl, fun ifindex => ?_⟩
  rw [List.mem_append, List.mem_reverse, Port.ifindex_unseen, sameSeen, heard_succ,
    List.map_append, List.mem_append]
  tauto

theorem Follows.converged_iff {listing : List Port}
    (follows : Follows tracker interfaceClass replies count)
    (replied : replies count = .ok listing) :
    (tracker.accept listing).2.converged (tracker.accept listing).1.length = true ↔
      Repeats interfaceClass replies count := by
  rcases follows.accept replied with ⟨new, -, seen⟩
  rw [PortTracker.converged, new, Bool.and_eq_true_iff, decide_eq_true_eq,
    List.length_eq_zero_iff, Port.unseen_eq_nil_iff, Bool.not_eq_true',
    List.isEmpty_eq_false_iff]
  constructor
  · rintro ⟨known, nonempty⟩
    refine ⟨by rw [replied]; rfl, known, fun none => ?_⟩
    rcases List.exists_mem_of_ne_nil _ nonempty with ⟨ifindex, isSeen⟩
    rw [seen, heard_succ, none, List.nil_append] at isSeen
    rcases List.mem_map.mp isSeen with ⟨port, member, -⟩
    have impossible := known port member
    rw [none] at impossible
    cases impossible
  · rintro ⟨-, known, some⟩
    refine ⟨known, fun none => ?_⟩
    rcases List.exists_mem_of_ne_nil _ some with ⟨port, member⟩
    have isSeen := (seen port.ifindex).mpr (List.mem_map_of_mem (by
      rw [heard_succ]
      exact List.mem_append_left _ member))
    rw [none] at isSeen
    cases isSeen

theorem run_initListed_of_repeats (follows : Follows tracker interfaceClass replies count)
    (repeats : Repeats interfaceClass replies count) :
    (provisioner.initListed names node (polls + 1) tracker).run
      (responder.listing interfaceClass replies) (before, count) =
        (some [], before, count + 1) := by
  obtain ⟨listing, replied⟩ : ∃ listing, replies count = .ok listing := by
    have succeeded := repeats.succeeded
    cases replied : replies count with
    | ok listing => exact ⟨listing, rfl⟩
    | error cause =>
        rw [replied] at succeeded
        cases succeeded
  have converged := (follows.converged_iff replied).mpr repeats
  rw [initListed, bind_eq_bind, run_askPorts_bind, follows.1,
    Responder.listPorts_listing, replied]
  dsimp only
  rw [if_pos converged]
  rfl

theorem run_initListed_of_not_repeats (follows : Follows tracker
    interfaceClass replies count) (goes : ¬Repeats interfaceClass replies count) :
    ∃ next phases after, Follows next interfaceClass replies (count + 1) ∧
      (provisioner.initEach names node (Port.unseen
        ((heard interfaceClass replies count).map (·.ifindex))
        (portsOf interfaceClass (replies count)))).Ends responder before phases after ∧
      (provisioner.initListed names node (polls + 1) tracker).run
          (responder.listing interfaceClass replies) (before, count) =
        ((provisioner.initListed names node polls next).bind fun others =>
          .done (phases ++ others)).run (responder.listing interfaceClass replies)
            (after, count + 1) := by
  cases replied : replies count with
  | error cause =>
      have same : heard interfaceClass replies (count + 1) =
          heard interfaceClass replies count := by
        rw [heard_succ, replied, portsOf, List.append_nil]
      refine ⟨tracker, [], before, ⟨follows.1, ?_⟩, ends_done_iff.mpr ⟨rfl, rfl⟩, ?_⟩
      · rw [same]
        exact follows.2
      · rw [initListed, bind_eq_bind, run_askPorts_bind, follows.1,
          Responder.listPorts_listing, replied]
        simp only [List.nil_append, bind_done]
  | ok listing =>
      rcases follows.accept replied with ⟨new, followsNext⟩
      have goesOn := mt (follows.converged_iff replied).mp goes
      rcases initEach_ends provisioner names node responder interfaceClass replies
        (tracker.accept listing).1 before (count + 1) with
        ⟨phases, after, ends, endsListing, -⟩
      rw [new] at ends
      rw [replied] at ends
      refine ⟨_, phases, after, followsNext, ends, ?_⟩
      rw [initListed, bind_eq_bind, run_askPorts_bind, follows.1,
        Responder.listPorts_listing, replied]
      dsimp only
      rw [if_neg goesOn, bind_eq_bind, Exchange.run_bind]
      have first : (collect (tracker.accept listing).1 fun port => do
          return [← provisioner.initPort names node port]).run
          (responder.listing interfaceClass replies) (before, count + 1) =
            (some phases, after, count + 1) := endsListing
      rw [first]
      rfl

/-- The loop ends with the first repetition, and then has initialised all ports it had
not seen at its start. -/
theorem initListed_ends {stop : Nat}
    (follows : Follows tracker interfaceClass replies count)
    (stops : StopsAt interfaceClass replies stop) (reached : count ≤ stop)
    (enough : stop < count + polls) :
    ∃ phases after, (provisioner.initListed names node polls tracker).Ends
        (responder.listing interfaceClass replies)
          (before, count) phases (after, stop + 1) ∧
      (provisioner.initEach names node (remaining interfaceClass replies count stop)).Ends
        responder before phases after := by
  induction polls generalizing tracker count before with
  | zero => omega
  | succ polls induction =>
      rcases Nat.eq_or_lt_of_le reached with rfl | earlier
      · refine ⟨[], before, run_initListed_of_repeats follows stops.1, ?_⟩
        rw [remaining_self]
        exact ends_done_iff.mpr ⟨rfl, rfl⟩
      · rcases run_initListed_of_not_repeats follows (stops.2 count earlier) with
          ⟨next, new, middle, followsNext, first, sameRun⟩
        rcases induction followsNext earlier (by omega) with ⟨others, after, rest, last⟩
        refine ⟨new ++ others, after,
          sameRun.trans (rest.map fun others => new ++ others), ?_⟩
        rw [remaining_succ earlier]
        exact initEach_ends_append_iff.mpr ⟨_, _, _, first, last, rfl⟩

theorem initListed_stalls (follows : Follows tracker interfaceClass replies count)
    (goes : ∀ later, count ≤ later → later < count + polls →
      ¬Repeats interfaceClass replies later) :
    ((provisioner.initListed names node polls tracker).run
      (responder.listing interfaceClass replies) (before, count)).1 = none := by
  induction polls generalizing tracker count before with
  | zero => rfl
  | succ polls induction =>
      rcases run_initListed_of_not_repeats follows
          (goes count (Nat.le_refl _) (by omega)) with
        ⟨next, new, middle, followsNext, -, sameRun⟩
      have rest := @induction next (count + 1) middle followsNext
        fun later reached within => goes later (by omega) (by omega)
      rw [sameRun, Exchange.run_bind]
      split
      · rename_i ended
        rw [ended] at rest
        cases rest
      · rfl

end Loop

end Provisioner

theorem ListingScript.exists_stopsAt {script : ListingScript}
    {interfaceClass : InterfaceClass}
    (some : ∃ listing ∈ script.pending, ∃ port ∈ listing,
      port.isOf interfaceClass = true) :
    ∃ stop ≤ script.pending.length,
      StopsAt interfaceClass (fun count => .ok (script.reply count)) stop := by
  rcases some with ⟨listing, isListing, port, isPort, isOf⟩
  rcases List.getElem?_of_mem isListing with ⟨position, planned⟩
  obtain ⟨count, long⟩ : ∃ count, script.pending.length = count + 1 :=
    Nat.exists_eq_succ_of_ne_zero (List.length_pos_of_mem isListing).ne'
  have early : position < count + 1 := long ▸ (List.getElem?_eq_some_iff.mp planned).1
  rw [long]
  apply Repeats.exists_stopsAt
  have heardOf (earlier : Nat) (within : earlier < count + 1) (other : Port)
      (brought : other ∈ portsOf interfaceClass (.ok (script.reply earlier))) :
      other ∈ heard interfaceClass (fun count => .ok (script.reply count)) (count + 1) :=
    List.mem_flatMap.mpr ⟨earlier, List.mem_range.mpr within, brought⟩
  refine ⟨rfl, fun other brought => ?_, fun none => ?_⟩
  · rw [ListingScript.reply_succ long] at brought
    exact List.mem_map_of_mem (heardOf count (Nat.lt_succ_self _) other brought)
  · have isHeard := heardOf position early port
      (List.mem_filter.mpr ⟨reply_eq planned ▸ isPort, isOf⟩)
    rw [none] at isHeard
    cases isHeard

/-! ## All ports of a class -/

namespace Provisioner

open Exchange

variable {State : Type}

theorem follows_start (interfaceClass : InterfaceClass) (replies : Nat → PortsReply) :
    Follows { interfaceClass } interfaceClass replies 0 := ⟨rfl, fun _ => Iff.rfl⟩

theorem initPortsOf_ends {responder : Responder State}
    {provisioner : Provisioner} {names : Names} {node : PortNode}
    {interfaceClass : InterfaceClass} {replies : Nat → PortsReply} {stop : Nat}
    (stops : StopsAt interfaceClass replies stop) (enough : stop < provisioner.polls)
    (before : State) :
    ∃ phases after, (provisioner.initPortsOf names interfaceClass node).Ends
        (responder.listing interfaceClass replies) (before, 0) phases (after, stop + 1) ∧
      (provisioner.initEach names node
        (Port.firsts (heard interfaceClass replies stop))).Ends
        responder before phases after := by
  have ended := @initListed_ends _ provisioner names node responder interfaceClass replies
    { interfaceClass } provisioner.polls 0 before stop (follows_start _ _)
    stops (Nat.zero_le _) (by omega)
  rwa [remaining_zero] at ended

/-- Whatever the listings, the loop stops at the first one that repeats what was heard
of, and never before. The ports that were heard of have then been initialised in
order, once for each index, and nothing else has been done. A store in memory whose
script has a port of the class comes to that point when its listings have been given
and the last one again. -/
theorem initPortsOf_stops_at_repeat (provisioner : Provisioner) (names : Names)
    (node : PortNode) (interfaceClass : InterfaceClass) :
    (∀ (responder : Responder State) (replies : Nat → PortsReply) (before : State),
      (∀ stop, StopsAt interfaceClass replies stop → stop < provisioner.polls →
        ∃ phases after, (provisioner.initPortsOf names interfaceClass node).Ends
            (responder.listing interfaceClass replies)
              (before, 0) phases (after, stop + 1) ∧
          (provisioner.initEach names node
            (Port.firsts (heard interfaceClass replies stop))).Ends responder
              before phases after ∧
          ((Port.firsts (heard interfaceClass replies stop)).map (·.ifindex)).Nodup ∧
          phases.map (·.name) = (Port.firsts (heard interfaceClass replies stop)).map
            fun port => "port " ++ port.name) ∧
      ((∀ stop < provisioner.polls, ¬StopsAt interfaceClass replies stop) →
        ((provisioner.initPortsOf names interfaceClass node).run
          (responder.listing interfaceClass replies) (before, 0)).1 = none)) ∧
    ∀ memory : Memory,
      (∃ listing ∈ (memory.script interfaceClass).pending,
        ∃ port ∈ listing, port.isOf interfaceClass = true) →
      (memory.script interfaceClass).pending.length < provisioner.polls →
      ∃ phases after, (provisioner.initPortsOf names interfaceClass node).Ends
        Memory.responder memory phases after ∧
        (after.script interfaceClass).calls ≤ (memory.script interfaceClass).calls +
          ((memory.script interfaceClass).pending.length + 1) := by
  refine ⟨fun responder replies before => ⟨fun stop stops enough => ?_, fun goes => ?_⟩,
    fun memory some enough => ?_⟩
  · rcases initPortsOf_ends stops enough before with ⟨phases, after, ends, each⟩
    rcases initEach_ends provisioner names node responder interfaceClass replies
      (Port.firsts (heard interfaceClass replies stop)) before 0 with
      ⟨others, _, sameEach, -, named⟩
    cases each.symm.trans sameEach
    exact ⟨phases, after, ends, each, Port.nodup_firsts _, named⟩
  · refine initListed_stalls (follows_start interfaceClass replies)
      fun later _ within repeats => ?_
    rcases repeats.exists_stopsAt with ⟨stop, early, stops⟩
    exact goes stop (by omega) stops
  · rcases ListingScript.exists_stopsAt some with ⟨stop, early, stops⟩
    rcases @initPortsOf_ends _ Memory.responder provisioner names node _ _ _ stops
      (Nat.lt_of_le_of_lt early enough) memory with ⟨phases, after, ends, -⟩
    have sameRun :=
      @Memory.run_listing memory interfaceClass (memory.script interfaceClass) _
      (provisioner.initPortsOf names interfaceClass node) 0
    rw [ListingScript.after, Memory.withScript_script, ends] at sameRun
    refine ⟨phases, _, sameRun, ?_⟩
    rw [Memory.script_withScript, ListingScript.calls_after]
    omega

def lateListings : Nat → PortsReply
  | 0 => .error .unavailable
  | 1 => .ok [⟨"Ethernet0", 1, InterfaceClass.frontPanel.typeName⟩]
  | 2 => .ok [⟨"Ethernet4", 5, InterfaceClass.frontPanel.typeName⟩,
      ⟨"CPU", 9, InterfaceClass.cpu.typeName⟩,
      ⟨"Ethernet0", 1, InterfaceClass.frontPanel.typeName⟩]
  | _ => .ok [⟨"Ethernet0", 1, InterfaceClass.frontPanel.typeName⟩]

theorem initPortsOf_stops_at_repeat_late :
    StopsAt .frontPanel lateListings 3 ∧
      ∃ phases after, (initPortsOf ⟨0, 5⟩ {} .frontPanel {}).Ends
          (Memory.responder.listing .frontPanel lateListings)
            (Memory.new 0, 0) phases (after, 4) ∧
        phases.map (·.name) = ["port Ethernet0", "port Ethernet4"] := by
  have stops : StopsAt .frontPanel lateListings 3 := by decide
  refine ⟨stops, ?_⟩
  rcases ((initPortsOf_stops_at_repeat ⟨0, 5⟩ {} {} .frontPanel).1
    Memory.responder lateListings
    (Memory.new 0)).1 3 stops (by decide) with ⟨phases, after, ends, -, -, named⟩
  exact ⟨phases, after, ends, named⟩

end Provisioner

end SwitchQos
