import FramedJson.Resolution
import FramedJson.Subject
import FramedJson.Sorting
import FramedJson.Text.Blank

/-!
The options of an encoder, read from text properties. The first unreadable value wins over unknown
keys, unknown keys win over a conflict, and a conflict is judged on the last values only.
-/
namespace FramedJson

structure Options where
  autoRegister : Bool
  normalize : Bool
  useLatest : Bool
  naming : SubjectNaming

inductive OptionsError
  | notBoolean (key : String)
  | unknownNaming (name : String)
  | unrecognized (keys : List String)
  | latestAndRegister
  deriving DecidableEq

def OptionsError.message : OptionsError → String
  | .notBoolean key => s!"{key} must be a boolean value"
  | .unknownNaming name => s!"unknown subject name strategy: '{name}'"
  | .unrecognized keys => "Unrecognized properties: " ++ String.intercalate ", " keys
  | .latestAndRegister => "cannot enable both use.latest.version and auto.register.schemas"

namespace Options

def default : Options := ⟨true, false, false, .byTopic⟩

/-- The newest schema of a subject cannot be taken and one's own registered. -/
def validate (options : Options) : Except OptionsError Unit :=
  if options.useLatest ∧ options.autoRegister then .error .latestAndRegister else .ok ()

def mode (options : Options) : ResolutionMode :=
  if options.useLatest then .useLatest
  else if options.autoRegister then .autoRegister options.normalize
  else .lookupOnly options.normalize

inductive Key
  | autoRegister
  | normalize
  | useLatest
  | naming
  deriving DecidableEq

def Key.name : Key → String
  | .autoRegister => "auto.register.schemas"
  | .normalize => "normalize.schemas"
  | .useLatest => "use.latest.version"
  | .naming => "subject.name.strategy"

def Key.ofName? (name : String) : Option Key :=
  [Key.autoRegister, .normalize, .useLatest, .naming].find? fun key => key.name = name

def readBool (key : Key) (value : String) : Except OptionsError Bool :=
  let word := Blank.trim value.toList
  if word = ['t', 'r', 'u', 'e'] then .ok true
  else if word = ['f', 'a', 'l', 's', 'e'] then .ok false
  else .error (.notBoolean key.name)

def readNaming (name : String) : Except OptionsError SubjectNaming :=
  match SubjectNaming.ofName? name with
  | some naming => .ok naming
  | none => .error (.unknownNaming name)

def set (options : Options) (key : Key) (value : String) : Except OptionsError Options :=
  match key with
  | .autoRegister => do return { options with autoRegister := ← readBool key value }
  | .normalize => do return { options with normalize := ← readBool key value }
  | .useLatest => do return { options with useLatest := ← readBool key value }
  | .naming => do return { options with naming := ← readNaming value }

/-- The options after all properties, and the keys that none of them reads. -/
def readAll (options : Options) : List (String × String) → Except OptionsError (Options × List String)
  | [] => .ok (options, [])
  | (name, value) :: rest =>
    match Key.ofName? name with
    | some key => do readAll (← options.set key value) rest
    | none => do
      let (options, unknown) ← readAll options rest
      return (options, name :: unknown)

def ofProperties (properties : List (String × String)) : Except OptionsError Options := do
  let (options, unknown) ← readAll default properties
  if unknown ≠ [] then
    throw (.unrecognized (Sorting.sort (fun a b => decide (a ≤ b)) unknown))
  options.validate
  return options

end Options
end FramedJson
