namespace FramedJson

inductive RegistryError
  | subjectNotFound (subject : String)
  | schemaNotFound (subject : String)
  | conflict (subject reason : String)
  | transport (text : String)
  deriving DecidableEq

def RegistryError.message : RegistryError → String
  | .subjectNotFound subject => s!"subject '{subject}' not found"
  | .schemaNotFound subject => s!"schema not found under subject '{subject}'"
  | .conflict subject reason => s!"schema conflicts with subject '{subject}': {reason}"
  | .transport text => s!"registry transport error: {text}"

end FramedJson
