namespace SwitchQos

def bracketed (texts : List String) : String :=
  "[" ++ ", ".intercalate texts ++ "]"

/-- A plain word between quotation marks; nothing in it is escaped. -/
def quoted (word : String) : String := "\"" ++ word ++ "\""

end SwitchQos
