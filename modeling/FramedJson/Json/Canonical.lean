import FramedJson.Json.Reader
import FramedJson.Json.Printer

namespace FramedJson

def canonicalize (definition : String) : String :=
  match Json.ofText definition with
  | .ok value => value.sortKeys.compact
  | .error _ => definition

end FramedJson
