import Mathlib.Data.List.Forall2

namespace SwitchQos

/-! Computations that may fail: when a composed one succeeds, and with what. -/

namespace Results

variable {Fault First Second : Type}

@[simp] theorem ok_bind (value : First) (next : First → Except Fault Second) :
    (Except.ok value >>= next) = next value := rfl

@[simp] theorem error_bind (fault : Fault) (next : First → Except Fault Second) :
    ((Except.error fault : Except Fault First) >>= next) = .error fault := rfl

theorem bind_eq_ok_iff {first : Except Fault First} {next : First → Except Fault Second}
    {result : Second} :
    (first >>= next) = .ok result ↔ ∃ value, first = .ok value ∧
    next value = .ok result := by
  cases first <;> simp

theorem map_eq_ok_iff {first : Except Fault First} {transform : First → Second}
    {result : Second} :
    first.map transform = .ok result ↔ ∃ value, first = .ok value ∧
    transform value = result := by
  cases first <;> simp [Except.map]

theorem mapError_eq_ok_iff {Other : Type} {first : Except Fault First}
    {transform : Fault → Other} {result : First} :
    first.mapError transform = .ok result ↔ first = .ok result := by
  cases first <;> simp [Except.mapError]

theorem eq_ok_getD {first : Except Fault First} (succeeds : first.isOk = true)
    (other : First) :
    first = .ok (first.toOption.getD other) := by
  cases first with
  | ok value => rfl
  | error => cases succeeds

theorem refusal_eq_ok_iff {refused : Prop} [Decidable refused] {fault : Fault}
    {next : Except Fault First} {result : First} :
    (if refused then .error fault else next) = .ok result ↔ ¬refused ∧
    next = .ok result := by
  split <;> simp [*]

theorem mapM_eq_ok_iff {step : First → Except Fault Second} {items : List First}
    {results : List Second} :
    items.mapM step = .ok results ↔
      List.Forall₂ (fun item result => step item = .ok result) items results := by
  induction items generalizing results with
  | nil => cases results <;> simp [pure, Except.pure]
  | cons item rest induction =>
      rw [List.mapM_cons]
      cases results with
      | nil =>
          simp only [bind_eq_ok_iff]
          constructor
          · rintro ⟨first, -, others, -, impossible⟩
            cases impossible
          · intro related
            cases related
      | cons result others =>
          simp only [bind_eq_ok_iff, List.forall₂_cons, ← induction]
          constructor
          · rintro ⟨first, firstOk, last, lastOk, same⟩
            cases same
            exact ⟨firstOk, lastOk⟩
          · rintro ⟨firstOk, lastOk⟩
            exact ⟨result, firstOk, others, lastOk, rfl⟩

section Related

variable {Left Right : Type} {Relation : Left → Right → Prop} {lefts : List Left}
  {rights : List Right}

theorem exists_right (related : List.Forall₂ Relation lefts rights) {left : Left}
    (member : left ∈ lefts) : ∃ right ∈ rights, Relation left right := by
  induction related with
  | nil => cases member
  | cons first _ induction =>
      rcases List.mem_cons.mp member with rfl | later
      · exact ⟨_, List.mem_cons_self, first⟩
      · rcases induction later with ⟨right, rightMember, holds⟩
        exact ⟨right, List.mem_cons_of_mem _ rightMember, holds⟩

theorem exists_left (related : List.Forall₂ Relation lefts rights) {right : Right}
    (member : right ∈ rights) : ∃ left ∈ lefts, Relation left right := by
  rcases exists_right related.flip member with ⟨left, leftMember, holds⟩
  exact ⟨left, leftMember, holds⟩

theorem exists_append_of_forall₂ {first second : List Left}
    (related : List.Forall₂ Relation (first ++ second) rights) :
    ∃ left right, rights = left ++ right ∧ List.Forall₂ Relation first left ∧
      List.Forall₂ Relation second right := by
  induction first generalizing rights with
  | nil => exact ⟨[], rights, rfl, .nil, related⟩
  | cons item rest induction =>
      cases related with
      | cons head tail =>
          rcases induction tail with ⟨left, right, rfl, others, last⟩
          exact ⟨_ :: left, right, rfl, .cons head others, last⟩

theorem forall₂_trans {Item : Type} {Next : Right → Item → Prop}
    {Whole : Left → Item → Prop} {items : List Item}
    (join : ∀ left right item, Relation left right → Next right item →
      Whole left item) (first : List.Forall₂ Relation lefts rights)
    (second : List.Forall₂ Next rights items) : List.Forall₂ Whole lefts items := by
  induction first generalizing items with
  | nil =>
      cases second
      exact .nil
  | cons related _ induction =>
      cases second with
      | cons next others => exact .cons (join _ _ _ related next) (induction others)

theorem exists_forall₂_iff {Item : Type} {Next : Right → Item → Prop}
    {items : List Item} :
    (∃ middle, List.Forall₂ Relation lefts middle ∧ List.Forall₂ Next middle items) ↔
      List.Forall₂ (fun left item => ∃ right, Relation left right ∧ Next right item)
        lefts items := by
  constructor
  · rintro ⟨middle, first, second⟩
    exact forall₂_trans (fun _ right _ related next =>
      ⟨right, related, next⟩) first second
  · intro related
    induction related with
    | nil => exact ⟨[], .nil, .nil⟩
    | cons head _ induction =>
        obtain ⟨right, isFirst, isSecond⟩ := head
        obtain ⟨others, first, second⟩ := induction
        exact ⟨right :: others, .cons isFirst first, .cons isSecond second⟩

theorem forall₂_and_iff {Has : Right → Prop} :
    List.Forall₂ (fun left right => Relation left right ∧ Has right) lefts rights ↔
      List.Forall₂ Relation lefts rights ∧ ∀ right ∈ rights, Has right := by
  induction lefts generalizing rights with
  | nil => cases rights <;> simp
  | cons left others induction =>
      cases rights with
      | nil => simp
      | cons right rest =>
          rw [List.forall₂_cons, List.forall₂_cons, List.forall_mem_cons, induction]
          exact and_and_and_comm

end Related

theorem exists_of_mem_mapM {step : First → Except Fault Second} {items : List First}
    {results : List Second} (succeeds : items.mapM step = .ok results) :
    ∀ result ∈ results, ∃ item ∈ items, step item = .ok result :=
  fun _ member => exists_left (mapM_eq_ok_iff.mp succeeds) member

theorem mapM_congr {step : First → Except Fault Second} {Relation : First → First → Prop}
    {items others : List First} (related : List.Forall₂ Relation items others)
    (same : ∀ item other, Relation item other → step other = step item) :
    others.mapM step = items.mapM step := by
  induction related with
  | nil => rfl
  | cons first _ induction =>
      rw [List.mapM_cons, List.mapM_cons, same _ _ first, induction]

theorem mapM_eq_some_iff {Item Value : Type} {step : Item → Option Value}
    {items : List Item} {values : List Value} :
    items.mapM step = some values ↔
      List.Forall₂ (fun item value => step item = some value) items values := by
  induction items generalizing values with
  | nil => cases values <;> simp
  | cons item rest induction =>
      cases values with
      | nil => simp [List.mapM_cons, Option.bind_eq_some_iff]
      | cons value others =>
          simp only [List.mapM_cons, Option.bind_eq_bind, Option.bind_eq_some_iff,
            Option.pure_def,
            Option.some.injEq, List.cons.injEq, List.forall₂_cons, ← induction]
          constructor
          · rintro ⟨first, firstFound, last, lastFound, rfl, rfl⟩
            exact ⟨firstFound, lastFound⟩
          · rintro ⟨firstFound, lastFound⟩
            exact ⟨value, firstFound, others, lastFound, rfl, rfl⟩

theorem exists_mapM {step : First → Except Fault Second} {items : List First}
    (each : ∀ item ∈ items, ∃ result, step item = .ok result) :
    ∃ results, items.mapM step = .ok results ∧
      ∀ result, result ∈ results ↔ ∃ item ∈ items, step item = .ok result := by
  induction items with
  | nil => exact ⟨[], rfl, by simp⟩
  | cons item rest induction =>
      rcases each item List.mem_cons_self with ⟨first, isFirst⟩
      rcases induction fun other member =>
        each other (List.mem_cons_of_mem _ member) with ⟨others, areOthers, members⟩
      refine ⟨first :: others, ?_, fun result => ?_⟩
      · rw [List.mapM_cons, isFirst, ok_bind, areOthers]
        rfl
      · simp [members, isFirst, eq_comm]

theorem mapM_eq_mapM_id (step : First → Except Fault Second) {items : List First} :
    items.mapM step = (items.map step).mapM id := by
  induction items with
  | nil => rfl
  | cons item rest induction =>
      rw [List.map_cons, List.mapM_cons, List.mapM_cons, induction]
      rfl

/-! ## Filtered lists -/

section Filtered

variable {Item Other : Type}

theorem forall₂_map_filter {Relation : Item → Item → Prop} {Made : Other → Other → Prop}
    {olds news : List Item} {hit : Item → Bool} {make : Item → Other}
    (related : List.Forall₂ Relation olds news)
    (sameHit : ∀ old new, Relation old new → hit new = hit old)
    (made : ∀ old new, Relation old new → hit old = true → Made (make old) (make new)) :
    List.Forall₂ Made ((olds.filter hit).map make) ((news.filter hit).map make) := by
  induction related with
  | nil => exact .nil
  | @cons old new _ _ first _ induction =>
      cases taken : hit old with
      | true =>
          have alsoTaken := (sameHit old new first).trans taken
          rw [List.filter_cons_of_pos alsoTaken, List.filter_cons_of_pos taken]
          exact .cons (made old new first taken) induction
      | false =>
          have alsoLeft : ¬hit new = true := by simp [sameHit old new first, taken]
          rw [List.filter_cons_of_neg alsoLeft, List.filter_cons_of_neg (by simp [taken])]
          exact induction

theorem map_filter_congr {Relation : Item → Item → Prop} {olds news : List Item}
    {hit : Item → Bool} {make : Item → Other} (related : List.Forall₂ Relation olds news)
    (sameHit : ∀ old new, Relation old new → hit new = hit old)
    (same : ∀ old new, Relation old new → hit old = true → make new = make old) :
    (news.filter hit).map make = (olds.filter hit).map make := by
  rw [← List.forall₂_eq_eq_eq]
  exact (forall₂_map_filter related sameHit same).flip

theorem forall₂_filter {Relation : Item → Item → Prop} {olds news : List Item}
    {hit : Item → Bool} (related : List.Forall₂ Relation olds news)
    (sameHit : ∀ old new, Relation old new → hit new = hit old) :
    List.Forall₂ Relation (olds.filter hit) (news.filter hit) := by
  have filtered :=
    @forall₂_map_filter _ _ _ _ _ _ _ id related sameHit fun _ _ same _ => same
  rwa [List.map_id, List.map_id] at filtered

theorem filter_congr {Relation : Item → Item → Prop} {olds news : List Item}
    {hit : Item → Bool} (related : List.Forall₂ Relation olds news)
    (sameHit : ∀ old new, Relation old new → hit new = hit old)
    (same : ∀ old new, Relation old new → hit old = true → new = old) :
    news.filter hit = olds.filter hit := by
  have filtered := @map_filter_congr _ _ _ _ _ _ id related sameHit same
  rwa [List.map_id, List.map_id] at filtered

end Filtered

end Results

end SwitchQos
