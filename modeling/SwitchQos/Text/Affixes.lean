namespace SwitchQos

/-! Keys and paths begin or end with fixed wording; reading one takes the wording
off and goes on with what is left. -/

def behind? (front text : String) : Option String :=
  (front.toList.isPrefixOf? text.toList).map String.ofList

def ahead? (back text : String) : Option String :=
  (back.toList.isSuffixOf? text.toList).map String.ofList

end SwitchQos
