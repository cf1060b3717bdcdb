import FramedJson.Options
import FramedJson.Proofs.Outcome

namespace FramedJson

namespace Options

theorem Key.name_injective {key other : Key} (same : key.name = other.name) : key = other := by
  cases key <;> cases other <;> first | rfl | exact absurd same (by decide)

theorem Key.ofName?_eq_some_iff {name : String} {key : Key} :
    ofName? name = some key ↔ key.name = name := by
  constructor
  · intro found
    simpa using List.find?_some found
  · rintro rfl
    cases key <;> decide

section Values

def word : Bool → List Char
  | true => ['t', 'r', 'u', 'e']
  | false => ['f', 'a', 'l', 's', 'e']

theorem readBool_eq (key : Key) (value : String) :
    readBool key value =
      if Blank.trim value.toList = word true then .ok true
      else if Blank.trim value.toList = word false then .ok false
      else .error (.notBoolean key.name) := rfl

theorem trim_eq_word_iff (on : Bool) (chars : List Char) :
    Blank.trim chars = word on ↔ Blank.Padded (word on) chars := by
  cases on <;> exact Blank.trim_eq_iff (List.cons_ne_nil _ _) (by decide) (by decide) chars

theorem readBool_ok_iff {key : Key} {value : String} {on : Bool} :
    readBool key value = .ok on ↔ Blank.Padded (word on) value.toList := by
  rw [← trim_eq_word_iff, readBool_eq]
  by_cases yes : Blank.trim value.toList = word true
  · rw [if_pos yes, yes]
    cases on <;> simp [word]
  · rw [if_neg yes]
    by_cases no : Blank.trim value.toList = word false
    · rw [if_pos no, no]
      cases on <;> simp [word]
    · rw [if_neg no]
      cases on <;> simp [yes, no]

theorem readBool_error {key : Key} {value : String} {e : OptionsError}
    (refused : readBool key value = .error e) : e = .notBoolean key.name := by
  rw [readBool_eq] at refused
  split at refused
  · cases refused
  · split at refused
    · cases refused
    · exact (Except.error.inj refused).symm

inductive Setting
  | flag (on : Bool)
  | naming (rule : SubjectNaming)

def setting (options : Options) : Key → Setting
  | .autoRegister => .flag options.autoRegister
  | .normalize => .flag options.normalize
  | .useLatest => .flag options.useLatest
  | .naming => .naming options.naming

theorem eq_of_settings {options other : Options}
    (same : ∀ key, options.setting key = other.setting key) : options = other := by
  cases options
  cases other
  have autoRegister := Setting.flag.inj (same .autoRegister)
  have normalize := Setting.flag.inj (same .normalize)
  have useLatest := Setting.flag.inj (same .useLatest)
  have naming := Setting.naming.inj (same .naming)
  simp only at autoRegister normalize useLatest naming
  rw [autoRegister, normalize, useLatest, naming]

/-- The values that an option can be set by. A flag is a word that may have white space around it, a rule
is one of its names and nothing else. -/
inductive Means : Key → String → Setting → Prop
  | flag (key : Key) (value : String) (on : Bool) (boolean : key ≠ .naming)
    (padded : Blank.Padded (word on) value.toList) : Means key value (.flag on)
  | naming (value : String) (rule : SubjectNaming)
    (known : SubjectNaming.ofName? value = some rule) : Means .naming value (.naming rule)

def complaint : Key → String → OptionsError
  | .naming, value => .unknownNaming value
  | key, _ => .notBoolean key.name

theorem Means.unique {key : Key} {value : String} {one other : Setting} (first : Means key value one)
    (second : Means key value other) : one = other := by
  cases first with
  | flag _ _ on boolean padded =>
    cases second with
    | flag _ _ on' _ padded' =>
      have read : readBool key value = .ok on := readBool_ok_iff.mpr padded
      have read' : readBool key value = .ok on' := readBool_ok_iff.mpr padded'
      exact congrArg Setting.flag (Except.ok.inj (read.symm.trans read'))
    | naming => exact absurd rfl boolean
  | naming _ rule known =>
    cases second with
    | flag _ _ _ boolean => exact absurd rfl boolean
    | naming _ rule' known' => exact congrArg Setting.naming (Option.some.inj (known.symm.trans known'))

inductive Takes (options : Options) (key : Key) (value : String) : Except OptionsError Options → Prop
  | set (after : Options) (means : Means key value (after.setting key))
    (others : ∀ other, other ≠ key → after.setting other = options.setting other) :
    Takes options key value (.ok after)
  | refused (meaningless : ∀ setting, ¬ Means key value setting) :
    Takes options key value (.error (complaint key value))

def putFlag (options : Options) (on : Bool) : Key → Options
  | .autoRegister => { options with autoRegister := on }
  | .normalize => { options with normalize := on }
  | .useLatest => { options with useLatest := on }
  | .naming => options

theorem setting_putFlag {key : Key} (boolean : key ≠ .naming) (options : Options) (on : Bool)
    (other : Key) :
    (options.putFlag on key).setting other =
      if other = key then .flag on else options.setting other := by
  cases key with
  | naming => exact absurd rfl boolean
  | _ => cases other <;> rfl

theorem set_flag {key : Key} (boolean : key ≠ .naming) (options : Options) (value : String) :
    options.set key value = (readBool key value).map fun on => options.putFlag on key := by
  cases key with
  | naming => exact absurd rfl boolean
  | _ => rfl

theorem set_naming (options : Options) (value : String) :
    options.set .naming value =
      (readNaming value).map fun rule => { options with naming := rule } := rfl

theorem set_takes_flag {key : Key} (boolean : key ≠ .naming) (options : Options) (value : String) :
    Takes options key value (options.set key value) := by
  rw [set_flag boolean]
  cases read : readBool key value with
  | ok on =>
    refine .set _ ?_ fun other differ => ?_
    · rw [setting_putFlag boolean, if_pos rfl]
      exact .flag key value on boolean (readBool_ok_iff.mp read)
    · rw [setting_putFlag boolean, if_neg differ]
  | error e =>
    have same : e = complaint key value := by
      rw [readBool_error read]
      cases key with
      | naming => exact absurd rfl boolean
      | _ => rfl
    rw [same]
    refine .refused ?_
    intro setting means
    cases means with
    | flag _ _ on _ padded => cases (readBool_ok_iff.mpr padded).symm.trans read
    | naming => exact boolean rfl

theorem set_takes_naming (options : Options) (value : String) :
    Takes options .naming value (options.set .naming value) := by
  rw [set_naming, readNaming]
  cases known : SubjectNaming.ofName? value with
  | some rule =>
    refine .set _ (.naming value rule known) ?_
    intro other differ
    cases other with
    | naming => exact absurd rfl differ
    | _ => rfl
  | none =>
    refine .refused ?_
    intro setting means
    cases means with
    | flag _ _ _ boolean => exact boolean rfl
    | naming _ rule known' => cases known'.symm.trans known

theorem set_takes (options : Options) (key : Key) (value : String) :
    Takes options key value (options.set key value) := by
  by_cases naming : key = .naming
  · rw [naming]
    exact set_takes_naming options value
  · exact set_takes_flag naming options value

end Values

section Properties

def lastValue? (key : Key) (properties : List (String × String)) : Option String :=
  Assoc.find? key.name properties.reverse

/-- A property whose key is an option's and whose value means nothing for it. -/
def Unreadable (property : String × String) : Prop :=
  ∃ key : Key, key.name = property.1 ∧ ∀ setting, ¬ Means key property.2 setting

def unknownNames (properties : List (String × String)) : List String :=
  (properties.map Prod.fst).filter fun name => (Key.ofName? name).isNone

/-- An option is what the last of its properties means, or as it was if it has none. -/
def Lasts (key : Key) (properties : List (String × String)) (before after : Setting) : Prop :=
  (lastValue? key properties = none → after = before) ∧
    ∀ value, lastValue? key properties = some value → Means key value after

variable {name value : String} {rest : List (String × String)} {key : Key}

theorem lastValue?_cons (key : Key) (name value : String) (rest : List (String × String)) :
    lastValue? key ((name, value) :: rest) =
      (lastValue? key rest).or (if name = key.name then some value else none) := by
  rw [lastValue?, List.reverse_cons, Assoc.find?_snoc, ← lastValue?]

theorem Lasts.other {before after : Setting} (lasts : Lasts key rest before after)
    (differ : name ≠ key.name) : Lasts key ((name, value) :: rest) before after := by
  rw [Lasts, lastValue?_cons, if_neg differ, Option.or_none]
  exact lasts

theorem Lasts.own {before middle after : Setting} (lasts : Lasts key rest middle after)
    (means : Means key value middle) : Lasts key ((key.name, value) :: rest) before after := by
  rw [Lasts, lastValue?_cons, if_pos rfl]
  cases last : lastValue? key rest with
  | none =>
    rw [lasts.1 last, Option.none_or]
    refine ⟨fun missing => ?_, fun _ same => ?_⟩
    · cases missing
    · cases same
      exact means
  | some later =>
    rw [Option.some_or]
    refine ⟨fun missing => ?_, fun _ same => lasts.2 _ (last.trans same)⟩
    cases missing

theorem readAll_known (options : Options) (key : Key) (value : String)
    (rest : List (String × String)) :
    readAll options ((key.name, value) :: rest) =
      options.set key value >>= fun options => readAll options rest := by
  rw [readAll, Key.ofName?_eq_some_iff.mpr rfl]

theorem readAll_unknown (options : Options) (unknown : Key.ofName? name = none) (value : String)
    (rest : List (String × String)) :
    readAll options ((name, value) :: rest) =
      (readAll options rest).map fun found => (found.1, name :: found.2) := by
  rw [readAll, unknown]
  rfl

theorem readable_cases (readable : ¬ Unreadable (name, value)) :
    Key.ofName? name = none ∨ ∃ key : Key, key.name = name ∧ ∀ options : Options,
      ∃ after, options.set key value = .ok after ∧ Means key value (after.setting key) ∧
        ∀ other, other ≠ key → after.setting other = options.setting other := by
  cases known : Key.ofName? name with
  | none => exact .inl rfl
  | some key =>
    have named := Key.ofName?_eq_some_iff.mp known
    refine .inr ⟨key, named, fun options => ?_⟩
    have takes := set_takes options key value
    generalize options.set key value = result at takes
    cases takes with
    | set after means others => exact ⟨after, rfl, means, others⟩
    | refused meaningless => exact absurd ⟨key, named, meaningless⟩ readable

theorem readAll_readable {properties : List (String × String)}
    (readable : ∀ property ∈ properties, ¬ Unreadable property) (options : Options) :
    ∃ after, readAll options properties = .ok (after, unknownNames properties) ∧
      ∀ key, Lasts key properties (options.setting key) (after.setting key) := by
  -- `options` is what the properties before these made of them.
  induction properties generalizing options with
  | nil => exact ⟨options, rfl, fun key => ⟨fun _ => rfl, fun value found => by cases found⟩⟩
  | cons property rest ih =>
    obtain ⟨name, value⟩ := property
    obtain ⟨here, later⟩ := List.forall_mem_cons.mp readable
    rcases readable_cases here with unknown | ⟨key, rfl, set⟩
    · obtain ⟨after, read, lasts⟩ := ih later options
      refine ⟨after, ?_, fun key => (lasts key).other ?_⟩
      · rw [readAll_unknown options unknown, read]
        simp [unknownNames, unknown, Except.map]
      · rintro rfl
        cases unknown.symm.trans (Key.ofName?_eq_some_iff.mpr rfl)
    · obtain ⟨middle, taken, means, others⟩ := set options
      obtain ⟨after, read, lasts⟩ := ih later middle
      refine ⟨after, ?_, fun other => ?_⟩
      · have known : Key.ofName? key.name = some key := Key.ofName?_eq_some_iff.mpr rfl
        rw [readAll_known, taken]
        simp only [bind, Except.bind, read]
        simp [unknownNames, known]
      · by_cases same : other = key
        · rw [same]
          exact (lasts key).own means
        · rw [← others other same]
          exact (lasts other).other fun named => same (Key.name_injective named).symm

theorem readAll_stopped {before : List (String × String)}
    (readable : ∀ property ∈ before, ¬ Unreadable property)
    (meaningless : ∀ setting, ¬ Means key value setting) (rest : List (String × String))
    (options : Options) :
    readAll options (before ++ (key.name, value) :: rest) = .error (complaint key value) := by
  induction before generalizing options with
  | nil =>
    rw [List.nil_append, readAll_known]
    have takes := set_takes options key value
    generalize options.set key value = result at takes
    cases takes with
    | set after means => exact absurd means (meaningless _)
    | refused => rfl
  | cons property before ih =>
    obtain ⟨name, earlier⟩ := property
    obtain ⟨here, later⟩ := List.forall_mem_cons.mp readable
    rw [List.cons_append]
    rcases readable_cases here with unknown | ⟨other, rfl, set⟩
    · rw [readAll_unknown options unknown, ih later options]
      rfl
    · obtain ⟨middle, taken, _⟩ := set options
      rw [readAll_known, taken]
      exact ih later middle

theorem Lasts.unique {properties : List (String × String)} {before one other : Setting}
    (first : Lasts key properties before one) (second : Lasts key properties before other) :
    one = other := by
  cases last : lastValue? key properties with
  | none => exact (first.1 last).trans (second.1 last).symm
  | some value => exact (first.2 value last).unique (second.2 value last)

theorem first_unreadable (properties : List (String × String)) :
    (∀ property ∈ properties, ¬ Unreadable property) ∨
    ∃ before property after, properties = before ++ property :: after ∧
      (∀ earlier ∈ before, ¬ Unreadable earlier) ∧ Unreadable property := by
  induction properties with
  | nil => exact .inl fun _ member => absurd member List.not_mem_nil
  | cons property rest ih =>
    by_cases here : Unreadable property
    · exact .inr ⟨[], property, rest, rfl, fun _ member => absurd member List.not_mem_nil, here⟩
    · rcases ih with all | ⟨before, later, after, rfl, readable, unreadable⟩
      · exact .inl (List.forall_mem_cons.mpr ⟨here, all⟩)
      · exact .inr ⟨property :: before, later, after, rfl, List.forall_mem_cons.mpr ⟨here, readable⟩,
          unreadable⟩

end Properties

section Reading

/-- What a list of properties amounts to. -/
inductive Reading (properties : List (String × String)) : Except OptionsError Options → Prop
  | unreadable (before after : List (String × String)) (key : Key) (value : String)
    (split : properties = before ++ (key.name, value) :: after)
    (readable : ∀ property ∈ before, ¬ Unreadable property)
    (meaningless : ∀ setting, ¬ Means key value setting) :
    Reading properties (.error (complaint key value))
  | unrecognized (names : List String) (readable : ∀ property ∈ properties, ¬ Unreadable property)
    (unknown : unknownNames properties ≠ []) (perm : names.Perm (unknownNames properties))
    (sorted : names.Pairwise fun a b => a ≤ b) : Reading properties (.error (.unrecognized names))
  | conflict (options : Options) (readable : ∀ property ∈ properties, ¬ Unreadable property)
    (known : unknownNames properties = [])
    (lasts : ∀ key, Lasts key properties (default.setting key) (options.setting key))
    (both : options.useLatest ∧ options.autoRegister) : Reading properties (.error .latestAndRegister)
  | accepted (options : Options) (readable : ∀ property ∈ properties, ¬ Unreadable property)
    (known : unknownNames properties = [])
    (lasts : ∀ key, Lasts key properties (default.setting key) (options.setting key))
    (apart : ¬ (options.useLatest ∧ options.autoRegister)) : Reading properties (.ok options)

variable {properties : List (String × String)}

theorem sort_names_sorted (names : List String) :
    (Sorting.sort (fun a b => decide (a ≤ b)) names).Pairwise fun a b => a ≤ b := by
  refine (Sorting.sort_sorted _ ?_ ?_ names).imp of_decide_eq_true
  · intro a b
    simpa using String.le_total a b
  · intro a b c first second
    exact decide_eq_true (String.le_trans (of_decide_eq_true first) (of_decide_eq_true second))

theorem sort_names {names unknown : List String} (perm : names.Perm unknown)
    (sorted : names.Pairwise fun a b => a ≤ b) :
    Sorting.sort (fun a b => decide (a ≤ b)) unknown = names :=
  List.Perm.eq_of_pairwise (fun _ _ _ _ => String.le_antisymm) (sort_names_sorted unknown) sorted
    ((Sorting.sort_perm _ unknown).trans perm.symm)

theorem ofProperties_of_stopped {e : OptionsError}
    (read : readAll default properties = .error e) : ofProperties properties = .error e := by
  rw [ofProperties, read]
  rfl

theorem ofProperties_of_read {options : Options} {unknown : List String}
    (read : readAll default properties = .ok (options, unknown)) :
    ofProperties properties =
      if unknown ≠ [] then .error (.unrecognized (Sorting.sort (fun a b => decide (a ≤ b)) unknown))
      else if options.useLatest ∧ options.autoRegister then .error .latestAndRegister
      else .ok options := by
  rw [ofProperties, read]
  simp only [bind, Except.bind, validate]
  by_cases known : unknown = []
  · rw [if_neg (not_not_intro known), if_neg (not_not_intro known)]
    by_cases both : options.useLatest ∧ options.autoRegister
    · rw [if_pos both, if_pos both]
    · rw [if_neg both, if_neg both]
      rfl
  · rw [if_pos known, if_pos known]
    rfl

theorem reading_ofProperties (properties : List (String × String)) :
    Reading properties (ofProperties properties) := by
  rcases first_unreadable properties with readable | ⟨before, property, after, rfl, readable, here⟩
  · obtain ⟨options, read, lasts⟩ := readAll_readable readable default
    rw [ofProperties_of_read read]
    split
    · rename_i unknown
      have perm := Sorting.sort_perm (fun a b => decide (a ≤ b)) (unknownNames properties)
      exact .unrecognized _ readable unknown perm (sort_names_sorted _)
    · rename_i known
      have known := Classical.byContradiction known
      split
      · rename_i both
        exact .conflict options readable known lasts both
      · rename_i apart
        exact .accepted options readable known lasts apart
  · obtain ⟨name, value⟩ := property
    obtain ⟨key, rfl, meaningless⟩ := here
    rw [ofProperties_of_stopped (readAll_stopped readable meaningless after default)]
    exact .unreadable before after key value rfl readable meaningless

theorem Reading.eq {result : Except OptionsError Options} (reading : Reading properties result) :
    ofProperties properties = result := by
  cases reading with
  | unreadable before after key value split readable meaningless =>
    rw [split]
    exact ofProperties_of_stopped (readAll_stopped readable meaningless after default)
  | unrecognized names readable unknown perm sorted =>
    obtain ⟨options, read, _⟩ := readAll_readable readable default
    rw [ofProperties_of_read read, if_pos unknown, sort_names perm sorted]
  | conflict options readable known lasts both =>
    obtain ⟨after, read, lasts'⟩ := readAll_readable readable default
    have same : after = options := eq_of_settings fun key => (lasts' key).unique (lasts key)
    rw [ofProperties_of_read read, if_neg (not_not_intro known), same, if_pos both]
  | accepted options readable known lasts apart =>
    obtain ⟨after, read, lasts'⟩ := readAll_readable readable default
    have same : after = options := eq_of_settings fun key => (lasts' key).unique (lasts key)
    rw [ofProperties_of_read read, if_neg (not_not_intro known), same, if_neg apart]

theorem lastValue?_perm {other : List (String × String)} (perm : properties.Perm other)
    (differ : (properties.map Prod.fst).Nodup) (key : Key) :
    lastValue? key other = lastValue? key properties := by
  have backwards : other.reverse.Perm properties.reverse :=
    (List.reverse_perm other).trans (perm.symm.trans (List.reverse_perm properties).symm)
  have differ' : (properties.reverse.map Prod.fst).Nodup :=
    ((List.reverse_perm properties).map Prod.fst).nodup_iff.mpr differ
  exact (Assoc.find?_perm differ' backwards.symm key.name).symm

theorem Reading.perm {other : List (String × String)} {result : Except OptionsError Options}
    (reading : Reading properties result) (perm : properties.Perm other)
    (differ : (properties.map Prod.fst).Nodup)
    (once : ∀ one ∈ properties, ∀ another ∈ properties,
      Unreadable one → Unreadable another → one = another) : Reading other result := by
  have differ' : (other.map Prod.fst).Nodup := (perm.map Prod.fst).nodup_iff.mp differ
  have unknowns : (unknownNames properties).Perm (unknownNames other) :=
    (perm.map Prod.fst).filter _
  have carried (readable : ∀ property ∈ properties, ¬ Unreadable property) :
      ∀ property ∈ other, ¬ Unreadable property :=
    fun property member => readable property (perm.mem_iff.mpr member)
  have last (key : Key) := lastValue?_perm perm differ key
  cases reading with
  | unreadable before after key value split readable meaningless =>
    have member : (key.name, value) ∈ properties := split ▸ List.mem_append_right _ List.mem_cons_self
    obtain ⟨before', after', split'⟩ := List.append_of_mem (perm.mem_iff.mp member)
    -- Wherever it stands now, no other is unreadable, and it does not stand there twice.
    refine .unreadable before' after' key value split' ?_ meaningless
    intro property earlier unreadable
    have same : property = (key.name, value) :=
      once property (perm.mem_iff.mpr (split' ▸ List.mem_append_left _ earlier)) _ member unreadable
        ⟨key, rfl, meaningless⟩
    rw [split', List.map_append, List.nodup_append] at differ'
    exact differ'.2.2 _ (List.mem_map_of_mem earlier) _ List.mem_cons_self (congrArg Prod.fst same)
  | unrecognized names readable unknown perm' sorted =>
    refine .unrecognized names (carried readable) ?_ (perm'.trans unknowns) sorted
    intro none
    exact unknown (List.perm_nil.mp (none ▸ unknowns))
  | conflict options readable known lasts both =>
    refine .conflict options (carried readable) (List.nil_perm.mp (known ▸ unknowns)) ?_ both
    intro key
    rw [Lasts, last]
    exact lasts key
  | accepted options readable known lasts apart =>
    refine .accepted options (carried readable) (List.nil_perm.mp (known ▸ unknowns)) ?_ apart
    intro key
    rw [Lasts, last]
    exact lasts key

end Reading

/-- What is read from properties. The first value that means nothing for its option decides; else the keys
that are no option's, in order and as often as they come; else each option is what the last of its
properties means, and only these must not conflict. A flag is its word with any white space around it. So
where the keys differ and one value at most means nothing, the order does not show, and what is read can
be used. -/
theorem last_value_wins (properties : List (String × String)) :
    (∀ result, ofProperties properties = result ↔ Reading properties result) ∧
    (∀ names, (OptionsError.unrecognized names).message =
      "Unrecognized properties: " ++ String.intercalate ", " names) ∧
    (∀ key value on, readBool key value = .ok on ↔ ∃ before after,
      (∀ c ∈ before, Blank.isBlank c) ∧ (∀ c ∈ after, Blank.isBlank c) ∧
        value.toList = before ++ word on ++ after) ∧
    (∀ other, properties.Perm other → (properties.map Prod.fst).Nodup →
      (∀ one ∈ properties, ∀ another ∈ properties,
        Unreadable one → Unreadable another → one = another) →
      ofProperties other = ofProperties properties) ∧
    ∀ options, ofProperties properties = .ok options → options.validate = .ok () := by
  have own := reading_ofProperties properties
  refine ⟨fun result => ⟨?_, Reading.eq⟩, fun _ => rfl, fun _ _ _ => readBool_ok_iff, ?_, ?_⟩
  · rintro rfl
    exact own
  · intro other perm differ once
    exact (own.perm perm differ once).eq
  · intro options read
    rw [read] at own
    cases own with
    | accepted _ _ _ _ apart => exact if_neg apart

def disordered : List (String × String) :=
  [("normalize.schemas", "maybe"), ("schema.id", "1"), ("use.latest.version", "\u3000true\t")]

def reordered : List (String × String) :=
  [("use.latest.version", "\u3000true\t"), ("normalize.schemas", "maybe"), ("schema.id", "1")]

def overwritten : List (String × String) :=
  [("use.latest.version", "\u3000true\t"), ("auto.register.schemas", "true"),
   ("auto.register.schemas", " false")]

theorem last_value_wins_overwritten :
    disordered.Perm reordered ∧
    ofProperties reordered = ofProperties disordered ∧
    ofProperties disordered = .error (.notBoolean "normalize.schemas") ∧
    ofProperties overwritten = .ok ⟨false, false, true, .byTopic⟩ ∧
    Options.validate ⟨false, false, true, .byTopic⟩ = .ok () := by
  obtain ⟨decided, _, _, permuted, _⟩ := last_value_wins disordered
  obtain ⟨_, _, _, _, valid⟩ := last_value_wins overwritten
  have perm : disordered.Perm reordered := by decide
  have meaningless : ∀ setting, ¬ Means .normalize "maybe" setting := by
    intro setting means
    cases means with
    | flag _ _ on _ padded =>
      have refused : readBool .normalize "maybe" = .error (.notBoolean "normalize.schemas") := by rfl
      cases (readBool_ok_iff.mpr padded).symm.trans refused
  have once : ∀ property ∈ disordered, Unreadable property →
      property = ("normalize.schemas", "maybe") := by
    rintro property member ⟨key, named, unreadable⟩
    simp only [disordered, List.mem_cons, List.not_mem_nil, or_false] at member
    rcases member with rfl | rfl | rfl
    · rfl
    · cases key <;> exact absurd named (by decide)
    · have same : key = .useLatest := Key.name_injective named
      subst same
      have padded := readBool_ok_iff.mp (show readBool .useLatest "\u3000true\t" = .ok true by rfl)
      exact absurd (Means.flag .useLatest _ true (by decide) padded) (unreadable _)
  have read : ofProperties overwritten = .ok ⟨false, false, true, .byTopic⟩ := by rfl
  refine ⟨perm, permuted reordered perm (by decide) ?_, ?_, read, valid _ read⟩
  · intro one member another member' unreadable unreadable'
    rw [once one member unreadable, once another member' unreadable']
  · exact (decided _).mpr (.unreadable [] _ .normalize "maybe" rfl
      (fun _ member => absurd member List.not_mem_nil) meaningless)

end Options
end FramedJson
