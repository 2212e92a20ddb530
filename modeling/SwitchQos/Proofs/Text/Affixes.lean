import Mathlib.Data.List.Basic
import SwitchQos.Text.Affixes

namespace SwitchQos

/-! What is left when fixed wording is taken off a text is the one text that, put
together with that wording, gives the text back. -/

private theorem map_ofList_eq_some_iff {chars? : Option (List Char)} {text : String} :
    chars?.map String.ofList = some text ↔ chars? = some text.toList := by
  cases chars? with
  | none => simp
  | some chars =>
      simp only [Option.map_some, Option.some.injEq]
      exact ⟨fun same => by rw [← same, String.toList_ofList],
        fun same => by rw [same, String.ofList_toList]⟩

theorem behind?_eq_some_iff {front text rest : String} :
    behind? front text = some rest ↔ text = front ++ rest := by
  rw [behind?, map_ofList_eq_some_iff, List.isPrefixOf?_eq_some_iff_append_eq,
    ← String.toList_append, String.toList_inj, eq_comm]

theorem ahead?_eq_some_iff {back text rest : String} :
    ahead? back text = some rest ↔ text = rest ++ back := by
  rw [ahead?, map_ofList_eq_some_iff, List.isSuffixOf?_eq_some_iff_append_eq,
    ← String.toList_append, String.toList_inj, eq_comm]

end SwitchQos
