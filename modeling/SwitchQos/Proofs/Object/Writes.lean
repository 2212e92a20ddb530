import SwitchQos.Proofs.Codec.Denotations
import SwitchQos.Proofs.Object.Assembly

namespace SwitchQos

/-! An authored object as a record of typed values. It is written by three kinds of calls,
and whatever calls there were, each attribute reads as the value that the last successful
one of them made of it. The object is known by the values that were made, the latest in
front: the stored rows are theirs one by one. -/

namespace Authored

/-! ## Calls -/

inductive Write where
  | value (attr : String) (value : AttrValue)
  | text (attr text : String)
  | item (attr : String) (item : Nat)
  deriving DecidableEq

def Write.attr : Write → String
  | .value attr _ | .text attr _ | .item attr _ => attr

def perform (object : Authored) : Write → Except CodecError Authored
  | .value attr value => object.set attr value
  | .text attr text => object.setText attr text
  | .item attr item => object.pushItem attr item

def after (object : Authored) (write : Write) : Authored :=
  match object.perform write with
  | .ok written => written
  | .error _ => object

def afterAll (object : Authored) (writes : List Write) : Authored :=
  writes.foldl after object

/-- What a call makes of the value that its attribute had before: the canonical form of
the value given, the value that the text denotes, or the list with the item at its end. -/
inductive Makes (spec : AttrSpec) : Write → Option AttrValue → AttrValue → Prop
  | value {attr : String} {value : AttrValue} {before : Option AttrValue}
      (admits : spec.Admits value) :
      Makes spec (.value attr value) before (spec.canonical value)
  | text {attr text : String} {value : AttrValue} {before : Option AttrValue}
      (denotes : spec.Denotes (trim text) value) :
      Makes spec (.text attr text) before value
  | first {attr : String} {item : Nat} (kind : spec.kind = .list)
      (holds : spec.storage.Holds item) : Makes spec (.item attr item) none (.list [item])
  | next {attr : String} {items : List Nat} {item : Nat} (kind : spec.kind = .list)
      (holds : spec.storage.Holds item) :
      Makes spec (.item attr item) (some (.list items)) (.list (items ++ [item]))

variable {objectClass : ObjectClass} {object written : Authored}
  {write : Write} {attr : String} {spec : AttrSpec} {value : AttrValue}
  {values : List (String × AttrValue)}

theorem after_of_ok (performed : object.perform write = .ok written) :
    object.after write = written := by
  rw [after, performed]

theorem after_of_error {fault : CodecError}
    (failed : object.perform write = .error fault) :
    object.after write = object := by
  rw [after, failed]

theorem afterAll_append (object : Authored) (first second : List Write) :
    object.afterAll (first ++ second) = (object.afterAll first).afterAll second :=
  List.foldl_append

/-! ## Values and rows -/

structure Stores (objectClass : ObjectClass) (value : String × AttrValue)
    (row : String × StoreValue) : Prop where
  attr : row.1 = value.1
  has : objectClass.Has value.1
  stored : objectClass.encode value.1 value.2 = .ok row.2
  canonical : ∀ spec, objectClass.spec? value.1 = some spec →
  spec.canonical value.2 = value.2

def Records (objectClass : ObjectClass) (values : List (String × AttrValue))
    (object : Authored) :
    Prop :=
  ∃ rows, List.Forall₂ (Stores objectClass) values rows ∧
  object = assembled objectClass rows

theorem records_new (objectClass : ObjectClass) :
    Records objectClass [] (new objectClass) :=
  ⟨[], .nil, rfl⟩

theorem findRow_of_stores {rows : List (String × StoreValue)}
    (stores : List.Forall₂ (Stores objectClass) values rows) (attr : String) :
    (Directory.findRow attr values = none ∧ Directory.findRow attr rows = none) ∨
      ∃ value stored, Directory.findRow attr values = some value ∧
        Directory.findRow attr rows = some stored ∧
        Stores objectClass (attr, value) (attr, stored) := by
  induction stores with
  | nil => exact .inl ⟨rfl, rfl⟩
  | @cons value row _ _ first _ induction =>
      rcases value with ⟨other, value⟩
      rcases row with ⟨rowAttr, stored⟩
      cases first.attr
      by_cases same : other = attr
      · subst same
        exact .inr ⟨value, stored, if_pos rfl, if_pos rfl, first⟩
      · simpa only [Directory.findRow, if_neg same] using induction

theorem Records.get_eq (records : Records objectClass values object)
    (has : objectClass.Has attr) :
    object.get attr = .ok (Directory.findRow attr values) := by
  rcases records with ⟨rows, stores, rfl⟩
  have hasAll : ∀ row ∈ rows, objectClass.Has row.1 := by
    intro row member
    rcases Results.exists_left stores member with ⟨value, -, rowStores⟩
    rw [rowStores.attr]
    exact rowStores.has
  have plain : (objectClass.assemble rows).IsPlain := ObjectClass.keyData_assemble
  have kept : (objectClass.assemble rows).lookup (objectClass.pathOf attr) =
      Directory.findRow attr rows := by
    rw [plain.lookup, ObjectClass.get?_assemble has hasAll]
  rw [get, data_assembled, objectClass_assembled]
  rcases findRow_of_stores stores attr with
    ⟨noValue, noRow⟩ | ⟨value, stored, isValue, isRow, one⟩
  · rw [noValue]
    exact ObjectClass.decode_eq_none has (kept.trans noRow)
  · rcases Option.isSome_iff_exists.mp has with ⟨spec, found⟩
    rw [isValue]
    exact (ObjectClass.decode_eq_some_iff found).mpr ⟨stored, kept.trans isRow,
      (ObjectClass.encode_eq_ok_iff found).mp one.stored, one.canonical spec found⟩

theorem Records.objectClass_eq (records : Records objectClass values object) :
    object.objectClass = objectClass := by
  rcases records with ⟨rows, -, rfl⟩
  rfl

theorem Records.admits (records : Records objectClass values object)
    (found : objectClass.spec? attr = some spec)
    (read : object.get attr = .ok (some value)) :
    spec.Admits value := by
  rw [get, records.objectClass_eq] at read
  rcases (ObjectClass.decode_eq_some_iff found).mp read with ⟨stored, -, encoded, -⟩
  exact AttrSpec.admits_of_encode encoded

/-! ## What a call does -/

theorem Records.add {rows : List (String × StoreValue)} {stored : StoreValue}
    (stores : List.Forall₂ (Stores objectClass) values rows)
    (found : objectClass.spec? attr = some spec)
    (encoded : spec.encode attr value = .ok stored)
    (canonical : spec.canonical value = value) :
    Records objectClass ((attr, value) :: values)
      (assembled objectClass ((attr, stored) :: rows)) := by
  refine ⟨(attr, stored) :: rows, .cons ⟨rfl, .of_spec? found, ?_, ?_⟩ stores, rfl⟩
  · exact (ObjectClass.encode_eq_ok_iff found).mpr encoded
  · intro other otherFound
    cases found.symm.trans otherFound
    exact canonical

theorem Records.set (records : Records objectClass values object)
    (done : object.set attr value = .ok written) :
    ∃ spec, objectClass.spec? attr = some spec ∧ spec.Admits value ∧
      Records objectClass ((attr, spec.canonical value) :: values) written := by
  rcases records with ⟨rows, stores, rfl⟩
  rcases set_eq_ok_iff.mp done with ⟨stored, encoded, rfl⟩
  rcases Option.isSome_iff_exists.mp
    (ObjectClass.has_of_encode encoded) with ⟨spec, found⟩
  rw [ObjectClass.encode_eq_ok_iff found] at encoded
  have admits := AttrSpec.admits_of_encode encoded
  exact ⟨spec, found, admits, .add stores found
    ((admits.encode_canonical attr).trans encoded) admits.canonical_canonical⟩

theorem Records.exists_set (records : Records objectClass values object)
    (found : objectClass.spec? attr = some spec) (admits : spec.Admits value) :
    ∃ written, object.set attr value = .ok written := by
  rcases records with ⟨rows, -, rfl⟩
  rcases admits.exists_encode attr with ⟨stored, encoded⟩
  exact ⟨_, set_eq_ok_iff.mpr
    ⟨stored, (ObjectClass.encode_eq_ok_iff found).mpr encoded, rfl⟩⟩

theorem Records.set_list {items : List Nat} (records : Records objectClass values object)
    (done : object.set attr (.list items) = .ok written) :
    ∃ spec, objectClass.spec? attr = some spec ∧ spec.kind = .list ∧
      (∀ item ∈ items, spec.storage.Holds item) ∧
      Records objectClass ((attr, .list items) :: values) written := by
  rcases records.set done with ⟨spec, found, admits, after⟩
  cases admits with
  | list kind hold =>
      refine ⟨spec, found, kind, hold, ?_⟩
      rwa [AttrSpec.canonical, kind] at after

theorem pushItem_eq_ok_iff {item : Nat} :
    object.pushItem attr item = .ok written ↔
      (object.get attr = .ok none ∧ object.set attr (.list [item]) = .ok written) ∨
        ∃ items, object.get attr = .ok (some (.list items)) ∧
          object.set attr (.list (items ++ [item])) = .ok written := by
  rw [pushItem]
  cases read : object.get attr with
  | error fault => simp
  | ok content =>
      cases content with
      | none => simp
      | some value => cases value <;> simp

/-- A call that succeeds makes a value of its attribute and leaves all else. -/
theorem Records.perform (records : Records objectClass values object)
    (performed : object.perform write = .ok written) :
    ∃ spec value, objectClass.spec? write.attr = some spec ∧
      Makes spec write (Directory.findRow write.attr values) value ∧
      Records objectClass ((write.attr, value) :: values) written := by
  cases write with
  | value attr value =>
      rcases records.set performed with ⟨spec, found, admits, after⟩
      exact ⟨spec, _, found, .value admits, after⟩
  | text attr text =>
      rcases records with ⟨rows, stores, rfl⟩
      rcases setText_eq_ok_iff.mp performed with ⟨stored, encoded, rfl⟩
      rcases ObjectClass.encodeText_eq_ok_iff.mp encoded with ⟨_, parsed, -⟩
      rcases Option.isSome_iff_exists.mp
        (ObjectClass.has_of_parseText parsed) with ⟨spec, found⟩
      rcases (ObjectClass.encodeText_denotes_iff found).mp encoded with
        ⟨value, denotes, written⟩
      exact ⟨spec, value, found, .text denotes,
        .add stores found written denotes.canonical⟩
  | item attr item =>
      rcases pushItem_eq_ok_iff.mp performed with ⟨absent, set⟩ | ⟨items, present, set⟩
      · rcases records.set_list set with ⟨spec, found, kind, hold, after⟩
        have before :=
          Except.ok.inj ((records.get_eq (.of_spec? found)).symm.trans absent)
        refine ⟨spec, _, found, ?_, after⟩
        rw [Write.attr, before]
        exact .first kind (hold item (List.mem_singleton_self item))
      · rcases records.set_list set with ⟨spec, found, kind, hold, after⟩
        have before :=
          Except.ok.inj ((records.get_eq (.of_spec? found)).symm.trans present)
        refine ⟨spec, _, found, ?_, after⟩
        rw [Write.attr, before]
        exact .next kind (hold item
          (List.mem_append_right items (List.mem_singleton_self item)))

theorem Records.exists_perform (records : Records objectClass values object)
    (found : objectClass.spec? write.attr = some spec)
    (makes : Makes spec write (Directory.findRow write.attr values) value) :
    ∃ written, object.perform write = .ok written := by
  have read := records.get_eq (.of_spec? found)
  cases write with
  | value attr value =>
      cases makes with
      | value admits => exact records.exists_set found admits
  | text attr text =>
      cases makes with
      | text denotes =>
          rcases records with ⟨rows, -, rfl⟩
          rcases (ObjectClass.exists_encodeText_iff found).mpr ⟨value, denotes⟩ with
              ⟨stored, encoded⟩
          exact ⟨_, setText_eq_ok_iff.mpr ⟨stored, encoded, rfl⟩⟩
  | item attr item =>
      change object.get attr = .ok (Directory.findRow attr values) at read
      change Makes spec (.item attr item) (Directory.findRow attr values) value at makes
      generalize Directory.findRow attr values = before at read makes
      cases makes with
      | first kind holds =>
          have admits : spec.Admits (.list [item]) := .list kind (by simpa using holds)
          rcases records.exists_set found admits with ⟨written, set⟩
          exact ⟨written, pushItem_eq_ok_iff.mpr (.inl ⟨read, set⟩)⟩
      | @next _ items _ kind holds =>
          have admits : spec.Admits (.list (items ++ [item])) := by
            refine .list kind fun other member => ?_
            rcases List.mem_append.mp member with old | new
            · cases records.admits found read with
              | list _ hold => exact hold other old
            · rw [List.mem_singleton.mp new]
              exact holds
          rcases records.exists_set found admits with ⟨written, set⟩
          exact ⟨written, pushItem_eq_ok_iff.mpr (.inr ⟨items, read, set⟩)⟩

theorem Records.after (records : Records objectClass values object) (write : Write) :
    ∃ values, Records objectClass values (object.after write) := by
  cases performed : object.perform write with
  | ok written =>
      rw [after_of_ok performed]
      rcases records.perform performed with ⟨_, _, -, -, records⟩
      exact ⟨_, records⟩
  | error fault =>
      rw [after_of_error performed]
      exact ⟨values, records⟩

theorem get_of_not_has (hasNot : ¬object.objectClass.Has attr) :
    object.get attr = .error (.unknownAttribute object.objectClass.path attr) := by
  have nowhere : object.objectClass.attrPath? attr = none := by
    rw [ObjectClass.attrPath?, Option.map_eq_none_iff]
    simpa [ObjectClass.Has] using hasNot
  rw [get, ObjectClass.decode, ObjectClass.attrPath, nowhere, Results.error_bind]

theorem Records.get_after_of_ne (records : Records objectClass values object)
    (other : write.attr ≠ attr) : (object.after write).get attr = object.get attr := by
  cases performed : object.perform write with
  | ok written =>
      rcases records.perform performed with ⟨_, _, -, -, after⟩
      rw [after_of_ok performed]
      by_cases has : objectClass.Has attr
      · rw [after.get_eq has, records.get_eq has, Directory.findRow, if_neg other]
      · have sameClass := after.objectClass_eq.trans records.objectClass_eq.symm
        rw [← records.objectClass_eq] at has
        rw [get_of_not_has has, get_of_not_has (sameClass ▸ has), sameClass]
  | error fault => rw [after_of_error performed]

theorem Records.get_after_of_ok (records : Records objectClass values object)
    (performed : object.perform write = .ok written) :
    ∃ spec before value, objectClass.spec? write.attr = some spec ∧
      object.get write.attr = .ok before ∧ Makes spec write before value ∧
      (object.after write).get write.attr = .ok (some value) := by
  rcases records.perform performed with ⟨spec, value, found, makes, after⟩
  have has := ObjectClass.Has.of_spec? found
  refine ⟨spec, _, value, found, records.get_eq has, makes, ?_⟩
  rw [after_of_ok performed, after.get_eq has, Directory.findRow, if_pos rfl]

/-! ## Histories -/

theorem exists_records (objectClass : ObjectClass) (writes : List Write) :
    ∃ values, Records objectClass values ((new objectClass).afterAll writes) := by
  induction writes using List.reverseRecOn with
  | nil => exact ⟨[], records_new objectClass⟩
  | append_singleton writes write induction =>
      rcases induction with ⟨values, records⟩
      rw [afterAll_append]
      exact records.after write

def Lands (objectClass : ObjectClass) (attr : String) (earlier : List Write)
    (write : Write) :
    Prop :=
  write.attr = attr ∧
    ∃ written, ((new objectClass).afterAll earlier).perform write = .ok written

theorem get_after_of_not_lands {earlier : List Write}
    (misses : ¬Lands objectClass attr earlier write) :
    ((new objectClass).afterAll (earlier ++ [write])).get attr =
      ((new objectClass).afterAll earlier).get attr := by
  rcases exists_records objectClass earlier with ⟨values, records⟩
  rw [afterAll_append]
  by_cases own : write.attr = attr
  · cases performed : ((new objectClass).afterAll earlier).perform write with
    | ok written => exact absurd ⟨own, written, performed⟩ misses
    | error fault => exact congrArg (get · attr) (after_of_error performed)
  · exact records.get_after_of_ne own

theorem get_after_of_lands {earlier : List Write}
    (lands : Lands objectClass attr earlier write) :
    ∃ spec before value, objectClass.spec? attr = some spec ∧
      ((new objectClass).afterAll earlier).get attr = .ok before ∧
      Makes spec write before value ∧
      ((new objectClass).afterAll (earlier ++ [write])).get attr = .ok (some value) := by
  rcases lands with ⟨rfl, written, performed⟩
  rcases exists_records objectClass earlier with ⟨values, records⟩
  rw [afterAll_append]
  exact records.get_after_of_ok performed

theorem get_afterAll_of_not_lands {earlier later : List Write}
    (miss : ∀ between write rest, later = between ++ write :: rest →
      ¬Lands objectClass attr (earlier ++ between) write) :
    ((new objectClass).afterAll (earlier ++ later)).get attr =
      ((new objectClass).afterAll earlier).get attr := by
  induction later generalizing earlier with
  | nil => rw [List.append_nil]
  | cons write rest induction =>
      have first := miss [] write rest rfl
      rw [List.append_nil] at first
      have others := @induction (earlier ++ [write]) fun between other last split => by
        rw [List.append_assoc]
        exact miss (write :: between) other last (by rw [split]; rfl)
      rw [List.append_assoc] at others
      exact others.trans (get_after_of_not_lands first)

theorem exists_get_afterAll {earlier : List Write}
    (present : ∃ value, ((new objectClass).afterAll earlier).get attr = .ok (some value))
    (later : List Write) :
    ∃ value, ((new objectClass).afterAll (earlier ++ later)).get attr =
      .ok (some value) := by
  induction later generalizing earlier with
  | nil => rwa [List.append_nil]
  | cons write rest induction =>
      rw [List.append_cons]
      apply induction
      by_cases lands : Lands objectClass attr earlier write
      · rcases get_after_of_lands lands with ⟨_, _, value, -, -, -, read⟩
        exact ⟨value, read⟩
      · rwa [get_after_of_not_lands lands]

theorem perform_ok_iff (objectClass : ObjectClass) (writes : List Write) (write : Write) :
    (∃ written, ((new objectClass).afterAll writes).perform write = .ok written) ↔
      ∃ spec before value, objectClass.spec? write.attr = some spec ∧
        ((new objectClass).afterAll writes).get write.attr = .ok before ∧
        Makes spec write before value := by
  rcases exists_records objectClass writes with ⟨values, records⟩
  constructor
  · rintro ⟨written, performed⟩
    rcases records.get_after_of_ok performed with
      ⟨spec, before, value, found, read, makes, -⟩
    exact ⟨spec, before, value, found, read, makes⟩
  · rintro ⟨spec, before, value, found, read, makes⟩
    cases (records.get_eq (.of_spec? found)).symm.trans read
    exact records.exists_perform found makes

theorem get_afterAll_eq_none_iff (has : objectClass.Has attr) (writes : List Write) :
    ((new objectClass).afterAll writes).get attr = .ok none ↔
      ∀ earlier write later, writes = earlier ++ write :: later →
        ¬Lands objectClass attr earlier write := by
  constructor
  · rintro absent earlier write later rfl lands
    rcases get_after_of_lands lands with ⟨_, _, value, -, -, -, read⟩
    rcases exists_get_afterAll ⟨value, read⟩ later with ⟨last, present⟩
    rw [← List.append_cons, absent] at present
    cases present
  · intro miss
    have same := @get_afterAll_of_not_lands objectClass attr [] writes miss
    exact same.trans ((records_new objectClass).get_eq has)

/-- Whatever calls were made on a new object of a class: a call succeeds exactly when
there is a value for it to make of its attribute; one that fails leaves the object as it
was; and none changes what is read of another attribute. An attribute of the class can
always be read. It is absent if no call for it has succeeded, and else it reads as the
value that the last one to succeed has made of what it was before. -/
theorem afterAll_reads_back (objectClass : ObjectClass) (writes : List Write) :
    let object := (new objectClass).afterAll writes
    (∀ write, (∃ written, object.perform write = .ok written) ↔
      ∃ spec before value, objectClass.spec? write.attr = some spec ∧
        object.get write.attr = .ok before ∧ Makes spec write before value) ∧
    (∀ write fault, object.perform write = .error fault → object.after write = object) ∧
    (∀ write attr, write.attr ≠ attr → (object.after write).get attr = object.get attr) ∧
    ∀ attr, objectClass.Has attr →
      (∃ content, object.get attr = .ok content) ∧
      (object.get attr = .ok none ↔
        ∀ earlier write later, writes = earlier ++ write :: later →
        ¬Lands objectClass attr earlier write) ∧
      ∀ earlier write later, writes = earlier ++ write :: later →
        Lands objectClass attr earlier write →
        (∀ between other rest, later = between ++ other :: rest →
          ¬Lands objectClass attr (earlier ++ write :: between) other) →
        ∃ spec before value, objectClass.spec? attr = some spec ∧
          ((new objectClass).afterAll earlier).get attr = .ok before ∧
          Makes spec write before value ∧ object.get attr = .ok (some value) := by
  intro object
  rcases exists_records objectClass writes with ⟨values, records⟩
  refine ⟨perform_ok_iff objectClass writes, fun write fault failed =>
    after_of_error failed,
    fun write attr other => records.get_after_of_ne other, fun attr has =>
      ⟨⟨_, records.get_eq has⟩, get_afterAll_eq_none_iff has writes, ?_⟩⟩
  rintro earlier write later split lands miss
  rcases get_after_of_lands lands with ⟨spec, before, value, found, was, makes, read⟩
  refine ⟨spec, before, value, found, was, makes, ?_⟩
  have kept := @get_afterAll_of_not_lands objectClass attr (earlier ++ [write]) later
    fun between other rest last => by
      rw [← List.append_cons]
      exact miss between other rest last
  rw [← List.append_cons, ← split] at kept
  exact kept.trans read

end Authored

end SwitchQos
