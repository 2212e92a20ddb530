import SwitchQos.Proofs.Schema.Paths

namespace SwitchQos

/-! A class path is a sequence of segments with slashes between them. A class is read
off its path by what the path begins and ends with. That this takes in no other text
shows in the segments: no two texts have the same ones, and a text addresses a class
only if it has those of the class, none of them twice, left out or added. -/

/-! ## Texts -/

def segmentsOf (text : String) : List String :=
  (text.toList.splitOn '/').map String.ofList

theorem segmentsOf_ne_nil (text : String) : segmentsOf text ≠ [] := by
  simp [segmentsOf, List.splitOn_ne_nil]

theorem segmentsOf_of_not_mem {text : String} (solid : '/' ∉ text.toList) :
    segmentsOf text = [text] := by
  simp [segmentsOf, List.splitOn_eq_singleton solid]

theorem segmentsOf_append (front rest : String) :
    segmentsOf (front ++ "/" ++ rest) = segmentsOf front ++ segmentsOf rest := by
  have chars : (front ++ "/" ++ rest).toList = front.toList ++ '/' :: rest.toList := by
    simp
  rw [segmentsOf, chars, List.splitOn_append_cons_self, List.map_append,
    segmentsOf, segmentsOf]

theorem intercalate_segmentsOf (text : String) :
    "/".intercalate (segmentsOf text) = text := by
  apply String.toList_injective
  have pieces : (segmentsOf text).map String.toList = text.toList.splitOn '/' := by
    simp [segmentsOf, Function.comp_def]
  rw [String.toList_intercalate, pieces]
  exact List.intercalate_splitOn '/'

theorem segmentsOf_inj {left right : String} :
    segmentsOf left = segmentsOf right ↔ left = right := by
  constructor
  · intro same
    rw [← intercalate_segmentsOf left, same, intercalate_segmentsOf]
  · exact congrArg segmentsOf

/-! ## Class paths -/

namespace ObjectClass

/-- The segments of the path of a class: the root and the name of the class; the
entries of a map type have a segment of their own behind the name of their table. -/
def segments : ObjectClass → List String
  | .mapEntry mapType => ["base-qos", mapType.name, "entry"]
  | objectClass => ["base-qos", objectClass.name]

private theorem segmentsOf_entry : segmentsOf "entry" = ["entry"] :=
  segmentsOf_of_not_mem (by decide)

theorem segmentsOf_path (objectClass : ObjectClass) :
    segmentsOf objectClass.path = objectClass.segments := by
  have root : segmentsOf "base-qos" = ["base-qos"] := segmentsOf_of_not_mem (by decide)
  have table (mapType : MapType) : segmentsOf mapType.name = [mapType.name] :=
    segmentsOf_of_not_mem mapType.slash_not_mem_name
  have whole : objectClass.path = "base-qos" ++ "/" ++ objectClass.name := rfl
  rw [whole, segmentsOf_append, root]
  cases objectClass with
  | mapTable mapType =>
      rw [name, table]
      rfl
  | mapEntry mapType =>
      have below : (mapEntry mapType).name = mapType.name ++ "/" ++ "entry" := by
        rw [String.append_assoc]
        rfl
      rw [below, segmentsOf_append, table, segmentsOf_entry]
      rfl
  | _ =>
      rw [segmentsOf_of_not_mem (by decide)]
      rfl

theorem segmentsOf_eq_segments_iff {text : String} {objectClass : ObjectClass} :
    segmentsOf text = objectClass.segments ↔ text = objectClass.path := by
  rw [← segmentsOf_path, segmentsOf_inj]

private theorem isEntry_or_segments_eq (objectClass : ObjectClass) :
    (∃ mapType, objectClass = .mapEntry mapType) ∨
      objectClass.segments = ["base-qos", objectClass.name] := by
  cases objectClass with
  | mapEntry mapType => exact .inl ⟨mapType, rfl⟩
  | _ => exact .inr rfl

private theorem two_le_length_segments (objectClass : ObjectClass) :
    2 ≤ objectClass.segments.length := by
  cases objectClass.isEntry_or_segments_eq with
  | inl isEntry =>
      obtain ⟨mapType, rfl⟩ := isEntry
      simp [segments]
  | inr short => simp [short]

/-- Below the path of a class nothing is addressed but the entries of a table. -/
theorem ofPath_append_eq_ok_iff {objectClass other : ObjectClass} {more : String} :
    ofPath (objectClass.path ++ "/" ++ more) = .ok other ↔
      ∃ mapType, objectClass = .mapTable mapType ∧ more = "entry" ∧
        other = .mapEntry mapType := by
  rw [ofPath_eq_ok_iff, eq_comm, ← segmentsOf_eq_segments_iff, segmentsOf_append,
    segmentsOf_path]
  constructor
  · intro same
    have added := List.length_pos_iff.mpr (segmentsOf_ne_nil more)
    have begun := objectClass.two_le_length_segments
    have count := congrArg List.length same
    rw [List.length_append] at count
    cases other.isEntry_or_segments_eq with
    | inr short =>
        simp only [short, List.length_cons, List.length_nil] at count
        omega
    | inl isEntry =>
        obtain ⟨mapType, rfl⟩ := isEntry
        cases objectClass.isEntry_or_segments_eq with
        | inl isEntry =>
            obtain ⟨above, rfl⟩ := isEntry
            simp only [segments, List.length_cons, List.length_nil] at count
            omega
        | inr short =>
            rw [short, segments] at same
            simp only [List.cons_append, List.nil_append, List.cons.injEq,
              true_and] at same
            have isTable : objectClass = .mapTable mapType := name_injective same.1
            have isEntry : more = "entry" := by
              rw [← segmentsOf_inj, same.2, segmentsOf_entry]
            exact ⟨mapType, isTable, isEntry, rfl⟩
  · intro ⟨mapType, isTable, isEntry, isBelow⟩
    rw [isTable, isEntry, isBelow, segmentsOf_entry]
    rfl

/-- A text addresses a class just when it is the path of that class, which its segments
tell. Every other text is refused with an error that names it; longer texts that begin
with the path of a class are such texts, except where they lead on from a table to its
entries. -/
theorem ofPath_exact (text : String) :
    (∀ objectClass : ObjectClass, ofPath text = .ok objectClass ↔
      text = objectClass.path) ∧
      (∀ objectClass : ObjectClass,
        text = objectClass.path ↔ segmentsOf text = objectClass.segments) ∧
      (∀ fault, ofPath text = .error fault ↔
        fault = .unknownClass text ∧
        ∀ objectClass : ObjectClass, text ≠ objectClass.path) ∧
      ∀ (objectClass other : ObjectClass) (more : String),
        ofPath (objectClass.path ++ "/" ++ more) = .ok other ↔
          ∃ mapType, objectClass = .mapTable mapType ∧ more = "entry" ∧
            other = .mapEntry mapType := by
  refine ⟨?_, ?_, ?_, ?_⟩
  · intro objectClass
    rw [ofPath_eq_ok_iff, eq_comm]
  · intro objectClass
    exact segmentsOf_eq_segments_iff.symm
  · intro fault
    exact ofPath_eq_error_iff
  · intro objectClass other more
    exact ofPath_append_eq_ok_iff

example : ofPath "base-qos/tc-to-queue-map/entry/entry" =
    .error (.unknownClass "base-qos/tc-to-queue-map/entry/entry") := by decide

end ObjectClass

end SwitchQos
