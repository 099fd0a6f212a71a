import ComputeGraph.Builder.Options
import ComputeGraph.Proofs.Json.Meaning
import ComputeGraph.Proofs.Outcome

/-!
# Options that are read

An object sets each option at most once, in any order and with other members in between. What is
read are the defaults with these options set. A second value for an option, or one of another form,
makes the whole text unreadable, wherever it stands. The text of all options is read as these
options.

* `Setting` — one option with its value, `Setting.IsValue` — the documents for the value;
* `Options.Sets` — the options that the members of an object set;
* `readField_key_eq_some_iff`, `readField_of_forall_ne` — what one member changes;
* `readFields_eq_some_iff` — what all of them change;
* **`Options.read_eq_ok_iff`** — what is read from an object;
* **`options_roundTrip`** — all that follows for texts that are written, and for objects.
-/

namespace ComputeGraph

open Json

/-- One option with its value. -/
inductive Setting where
  | foldConstants (value : Bool)
  | domainPolicy (value : DomainPolicy)
  | validateShapes (value : Bool)
  | namePrefix (value : Option String)

namespace Setting

/-- The key of an option. -/
def key : Setting → String
  | .foldConstants _ => "fold_constants"
  | .domainPolicy _ => "domain_policy"
  | .validateShapes _ => "validate_shapes"
  | .namePrefix _ => "name_prefix"

/-- The options with this one set. -/
def apply (options : Options) : Setting → Options
  | .foldConstants value => { options with foldConstants := value }
  | .domainPolicy value => { options with domainPolicy := value }
  | .validateShapes value => { options with validateShapes := value }
  | .namePrefix value => { options with namePrefix := value }

/-- The document is the value of the option: a truth value, a text or `null`, or for a policy its
name as a text or as the only key of an object with `null` under it. -/
def IsValue (document : Json Spelling) : Setting → Prop
  | .foldConstants value => document = .bool value
  | .domainPolicy value => document.IsText value.name ∨
      ∃ key, document = .object [(key, .null)] ∧ Spells key value.name
  | .validateShapes value => document = .bool value
  | .namePrefix value => document.IsOptionOf IsText value

theorem exists_iff {P : Setting → Prop} :
    (∃ setting, P setting) ↔ (∃ value, P (.foldConstants value)) ∨
      (∃ value, P (.domainPolicy value)) ∨ (∃ value, P (.validateShapes value)) ∨
      ∃ value, P (.namePrefix value) := by
  constructor
  · intro h
    obtain ⟨setting, h⟩ := h
    cases setting with
    | foldConstants value => exact .inl ⟨value, h⟩
    | domainPolicy value => exact .inr (.inl ⟨value, h⟩)
    | validateShapes value => exact .inr (.inr (.inl ⟨value, h⟩))
    | namePrefix value => exact .inr (.inr (.inr ⟨value, h⟩))
  · intro h
    rcases h with ⟨value, h⟩ | ⟨value, h⟩ | ⟨value, h⟩ | ⟨value, h⟩ <;> exact ⟨_, h⟩

end Setting

/-- The members of an object set the options in this order. Members with the keys of no option may
stand between them. -/
inductive Options.Sets : List (Spelling × Json Spelling) → List Setting → Prop
  | nil : Sets [] []
  | setting {key : Spelling} {value : Json Spelling} {members : List (Spelling × Json Spelling)}
      {setting : Setting} {settings : List Setting} (hkey : Spells key setting.key)
      (hvalue : setting.IsValue value) (h : Sets members settings) :
      Sets ((key, value) :: members) (setting :: settings)
  | other {key : Spelling} {text : String} {value : Json Spelling}
      {members : List (Spelling × Json Spelling)} {settings : List Setting}
      (hkey : Spells key text) (hother : ∀ setting : Setting, setting.key ≠ text)
      (h : Sets members settings) : Sets ((key, value) :: members) settings

/-! ### The values of options -/

namespace Options

theorem readBool?_eq_some_iff {document : Json Spelling} {value : Bool} :
    readBool? document = some value ↔ document = .bool value := by
  cases document <;> simp [readBool?]

theorem readText?_eq_some_iff {document : Json Spelling} {text : String} :
    readText? document = some text ↔ document.IsText text := by
  unfold IsText Spells
  cases document with
  | string pieces =>
    simp only [readText?, Option.map_eq_some_iff, Json.string.injEq, exists_eq_left']
    constructor
    · intro h
      obtain ⟨s, hs, rfl⟩ := h
      rw [hs, String.toList_ofList]
    · intro h
      exact ⟨_, h, String.ofList_toList⟩
  | _ => simp [readText?]

theorem readNamed?_eq_some_iff {document : Json Spelling} {policy : DomainPolicy} :
    (readText? document).bind DomainPolicy.ofName? = some policy ↔
      document.IsText policy.name := by
  have hname : ∀ name, DomainPolicy.ofName? name = some policy ↔ name = policy.name := by
    intro name
    constructor
    · intro h
      have hfound := List.find?_some h
      exact (of_decide_eq_true hfound).symm
    · intro h
      subst h
      cases policy <;> rfl
  simp only [Option.bind_eq_some_iff, readText?_eq_some_iff, hname, exists_eq_right]

theorem readPolicy?_eq_some_iff {document : Json Spelling} {policy : DomainPolicy} :
    readPolicy? document = some policy ↔ (Setting.domainPolicy policy).IsValue document := by
  unfold readPolicy?
  split
  · rename_i key
    rw [readNamed?_eq_some_iff]
    constructor
    · intro h
      obtain ⟨pieces, hpieces, h⟩ := h
      cases hpieces
      exact .inr ⟨key, rfl, h⟩
    · intro h
      rcases h with ⟨pieces, hpieces, -⟩ | ⟨key', hkey, h⟩
      · cases hpieces
      · cases hkey
        exact ⟨key, rfl, h⟩
  · rename_i hother
    rw [readNamed?_eq_some_iff]
    constructor
    · exact .inl
    · intro h
      rcases h with h | ⟨key, hkey, -⟩
      · exact h
      · exact absurd hkey (hother key)

theorem readOptionalText?_eq_some_iff {document : Json Spelling} {text : Option String} :
    readOptionalText? document = some text ↔ document.IsOptionOf IsText text := by
  unfold readOptionalText?
  split
  · cases text with
    | none => simp [IsOptionOf]
    | some text => simp [IsOptionOf, IsText]
  · rename_i hother
    cases text with
    | none => simpa [IsOptionOf] using hother
    | some text => simp [IsOptionOf, readText?_eq_some_iff]

theorem map_setOnce_eq_some_iff {α β : Type} {field value : Option α} {f : Option α → β}
    {after : β} :
    (setOnce field value).map f = some after ↔
      ∃ x, value = some x ∧ field = none ∧ after = f (some x) := by
  cases field <;> cases value <;> simp [setOnce, eq_comm]

/-! ### Setting options one after another -/

/-- The option is not set yet. -/
def Fields.Lacks (fields : Fields) : Setting → Prop
  | .foldConstants _ => fields.foldConstants = none
  | .domainPolicy _ => fields.domainPolicy = none
  | .validateShapes _ => fields.validateShapes = none
  | .namePrefix _ => fields.namePrefix = none

/-- The fields with an option set. -/
def Fields.put (fields : Fields) : Setting → Fields
  | .foldConstants value => { fields with foldConstants := some value }
  | .domainPolicy value => { fields with domainPolicy := some value }
  | .validateShapes value => { fields with validateShapes := some value }
  | .namePrefix value => { fields with namePrefix := some value }

theorem Fields.toOptions_put (fields : Fields) (setting : Setting) :
    (fields.put setting).toOptions = setting.apply fields.toOptions := by
  cases setting <;> rfl

/-- Setting an option leaves those with other keys as they are. -/
theorem Fields.lacks_put {fields : Fields} {setting other : Setting} :
    (fields.put setting).Lacks other ↔ other.key ≠ setting.key ∧ fields.Lacks other := by
  cases setting <;> cases other <;> simp [Fields.put, Fields.Lacks, Setting.key]

/-- A member with the key of an option sets the option, which must not be set yet. -/
theorem readField_key_eq_some_iff {fields after : Fields} {value : Json Spelling}
    (setting : Setting) :
    readField fields setting.key.toList value = some after ↔
      ∃ other : Setting, other.key = setting.key ∧ other.IsValue value ∧ fields.Lacks other ∧
        after = fields.put other := by
  unfold readField
  simp only [String.toList_inj]
  cases setting
  all_goals
    simp only [Setting.exists_iff, Setting.key, String.reduceEq, reduceIte, true_and, false_and,
      exists_false, or_false, false_or, map_setOnce_eq_some_iff]
    simp only [readBool?_eq_some_iff, readPolicy?_eq_some_iff, readOptionalText?_eq_some_iff]
    rfl

/-- A member with another key is passed over. -/
theorem readField_of_forall_ne {text : String} (h : ∀ setting : Setting, setting.key ≠ text)
    (fields : Fields) (value : Json Spelling) :
    readField fields text.toList value = some fields := by
  have hfold : ¬ text = "fold_constants" := (h (.foldConstants true)).symm
  have hpolicy : ¬ text = "domain_policy" := (h (.domainPolicy .ieee)).symm
  have hvalidate : ¬ text = "validate_shapes" := (h (.validateShapes true)).symm
  have hnamed : ¬ text = "name_prefix" := (h (.namePrefix none)).symm
  simp only [readField, String.toList_inj, hfold, hpolicy, hvalidate, hnamed, reduceIte]

/-! ### Setting all options -/

/-- The members, one of which comes first, set the options of some fields. -/
theorem bind_readFields_cons {fields after : Fields} {key : Spelling} {value : Json Spelling}
    {members : List (Spelling × Json Spelling)} :
    (((key, value) :: members).mapM readKey?).bind (readFields fields) = some after ↔
      ∃ text mid, Spells key text ∧ readField fields text.toList value = some mid ∧
        (members.mapM readKey?).bind (readFields mid) = some after := by
  constructor
  · intro h
    obtain ⟨texts, htexts, h⟩ := Option.bind_eq_some_iff.1 h
    obtain ⟨first, rest, hfirst, hrest, rfl⟩ :=
      List.forall₂_cons_left_iff.1 (mapM_eq_some.1 htexts)
    obtain ⟨text, htext, rfl⟩ := Option.map_eq_some_iff.1 hfirst
    obtain ⟨mid, hfield, h⟩ := Option.bind_eq_some_iff.1 h
    rw [← String.toList_ofList (l := text)] at htext hfield
    exact ⟨_, mid, htext, hfield, Option.bind_eq_some_iff.2 ⟨rest, mapM_eq_some.2 hrest, h⟩⟩
  · intro h
    obtain ⟨text, mid, hkey, hfield, h⟩ := h
    obtain ⟨rest, hrest, h⟩ := Option.bind_eq_some_iff.1 h
    have hfirst : readKey? (key, value) = some (text.toList, value) :=
      Option.map_eq_some_iff.2 ⟨_, hkey, rfl⟩
    exact Option.bind_eq_some_iff.2
      ⟨_, mapM_eq_some.2 (.cons hfirst (mapM_eq_some.1 hrest)),
        Option.bind_eq_some_iff.2 ⟨mid, hfield, h⟩⟩

/-- **All members.** The options that they set have different keys and were not set before. -/
theorem readFields_eq_some_iff {fields after : Fields}
    {members : List (Spelling × Json Spelling)} :
    (members.mapM readKey?).bind (readFields fields) = some after ↔
      ∃ settings, Sets members settings ∧ (settings.map Setting.key).Nodup ∧
        (∀ setting ∈ settings, fields.Lacks setting) ∧
        after = settings.foldl Fields.put fields := by
  -- an option that the first member sets is one that the fields of the others no longer lack
  induction members generalizing fields with
  | nil =>
    constructor
    · intro h
      cases h
      exact ⟨[], .nil, List.nodup_nil, List.forall_mem_nil _, rfl⟩
    · intro h
      obtain ⟨settings, hsets, -, -, rfl⟩ := h
      cases hsets
      rfl
  | cons member members ih =>
    obtain ⟨key, value⟩ := member
    rw [bind_readFields_cons]
    constructor
    · intro h
      obtain ⟨text, mid, hkey, hfield, h⟩ := h
      obtain ⟨settings, hsets, hnodup, hlacks, rfl⟩ := ih.1 h
      by_cases hknown : ∃ setting : Setting, setting.key = text
      · obtain ⟨setting, rfl⟩ := hknown
        obtain ⟨other, hother, hvalue, hlack, rfl⟩ := (readField_key_eq_some_iff setting).1 hfield
        have hrest : ∀ next ∈ settings, next.key ≠ other.key ∧ fields.Lacks next :=
          fun next hnext => Fields.lacks_put.1 (hlacks next hnext)
        refine ⟨other :: settings, .setting (hother.symm ▸ hkey) hvalue hsets, ?_, ?_, rfl⟩
        · refine List.nodup_cons.2 ⟨fun hmem => ?_, hnodup⟩
          obtain ⟨next, hnext, hsame⟩ := List.mem_map.1 hmem
          exact (hrest next hnext).1 hsame
        · exact List.forall_mem_cons.2 ⟨hlack, fun next hnext => (hrest next hnext).2⟩
      · push Not at hknown
        rw [readField_of_forall_ne hknown, Option.some.injEq] at hfield
        subst hfield
        exact ⟨settings, .other hkey hknown hsets, hnodup, hlacks, rfl⟩
    · intro h
      obtain ⟨settings, hsets, hnodup, hlacks, rfl⟩ := h
      cases hsets with
      | @setting _ _ _ setting settings hkey hvalue hsets =>
        obtain ⟨hfresh, hnodup⟩ := List.nodup_cons.1 hnodup
        obtain ⟨hlack, hlacks⟩ := List.forall_mem_cons.1 hlacks
        have hrest : ∀ next ∈ settings, (fields.put setting).Lacks next :=
          fun next hnext => Fields.lacks_put.2
            ⟨fun hsame => hfresh (hsame ▸ List.mem_map_of_mem hnext), hlacks next hnext⟩
        exact ⟨setting.key, _, hkey,
          (readField_key_eq_some_iff setting).2 ⟨setting, rfl, hvalue, hlack, rfl⟩,
          ih.2 ⟨settings, hsets, hnodup, hrest, rfl⟩⟩
      | @other _ text _ _ _ hkey hother hsets =>
        exact ⟨text, fields, hkey, readField_of_forall_ne hother fields value,
          ih.2 ⟨settings, hsets, hnodup, hlacks, rfl⟩⟩

/-! ### Texts of objects -/

theorem toOptions_foldl_put (settings : List Setting) (fields : Fields) :
    (settings.foldl Fields.put fields).toOptions =
      settings.foldl (fun options setting => setting.apply options) fields.toOptions := by
  induction settings generalizing fields with
  | nil => rfl
  | cons setting settings ih =>
    rw [List.foldl_cons, List.foldl_cons, ih, Fields.toOptions_put]

theorem read_of_object {text : String} {members : List (Spelling × Json Spelling)}
    (h : read? text = some (.object members)) {options : Options} :
    read text = .ok options ↔
      ∃ fields, (members.mapM readKey?).bind (readFields {}) = some fields ∧
        options = fields.toOptions := by
  have hjson : ofJson? (.object members) =
      ((members.mapM readKey?).bind (readFields {})).map Fields.toOptions := by
    show ((members.mapM readKey?).bind fun texts =>
      (readFields {} texts).bind fun fields => some fields.toOptions) = _
    cases members.mapM readKey? with
    | none => rfl
    | some texts =>
      rw [Option.bind_some, Option.bind_some]
      cases readFields {} texts <;> rfl
  unfold read
  rw [h, Option.bind_some, hjson]
  cases (members.mapM readKey?).bind (readFields {}) with
  | none => simp
  | some fields => simp [eq_comm]

/-- **What is read from an object** are the defaults with the options set that its members set. -/
theorem read_eq_ok_iff {text : String} {members : List (Spelling × Json Spelling)}
    (h : read? text = some (.object members)) {options : Options} :
    read text = .ok options ↔
      ∃ settings, Sets members settings ∧ (settings.map Setting.key).Nodup ∧
        options = settings.foldl (fun options setting => setting.apply options) {} := by
  rw [read_of_object h]
  constructor
  · intro h
    obtain ⟨fields, hfields, rfl⟩ := h
    obtain ⟨settings, hsets, hnodup, -, rfl⟩ := readFields_eq_some_iff.1 hfields
    exact ⟨settings, hsets, hnodup, toOptions_foldl_put settings {}⟩
  · intro h
    obtain ⟨settings, hsets, hnodup, rfl⟩ := h
    have hlacks : ∀ setting ∈ settings, ({} : Fields).Lacks setting :=
      fun setting _ => by cases setting <;> rfl
    exact ⟨_, readFields_eq_some_iff.2 ⟨settings, hsets, hnodup, hlacks, rfl⟩,
      (toOptions_foldl_put settings {}).symm⟩

/-- A text that is not read is unreadable. -/
theorem read_eq_unreadable {text : String} (h : ∀ options, read text ≠ .ok options) :
    read text = .error .unreadable := by
  unfold read at h ⊢
  split
  · rename_i options hread
    simp [hread] at h
  · rfl

/-- The text of all options is read as these options. -/
theorem read_text (options : Options) : read options.text = .ok options := by
  have hread : read? options.text = some (options.toJson.map spell) := read?_compact options.toJson
  refine (read_eq_ok_iff hread).2 ⟨[.foldConstants options.foldConstants,
    .domainPolicy options.domainPolicy, .validateShapes options.validateShapes,
    .namePrefix options.namePrefix], ?_, ?_, rfl⟩
  · refine .setting (spells_spell _) rfl ?_
    refine .setting (spells_spell _) (.inl (isText_string _)) ?_
    refine .setting (spells_spell _) rfl ?_
    exact .setting (spells_spell _) (isOptionOf_ofOption isText_string options.namePrefix) .nil
  · show ["fold_constants", "domain_policy", "validate_shapes", "name_prefix"].Nodup
    decide

end Options

/-! ### Members that cannot be read -/

namespace Options.Sets

variable {front back members : List (Spelling × Json Spelling)} {settings : List Setting}

/-- The first members set the first options. -/
theorem of_append (h : Sets (front ++ back) settings) :
    ∃ first rest, settings = first ++ rest ∧ Sets front first ∧ Sets back rest := by
  induction front generalizing settings with
  | nil => exact ⟨[], settings, rfl, .nil, h⟩
  | cons member front ih =>
    cases h with
    | setting hkey hvalue h =>
      obtain ⟨first, rest, rfl, hfirst, hrest⟩ := ih h
      exact ⟨_ :: first, rest, rfl, .setting hkey hvalue hfirst, hrest⟩
    | other hkey hother h =>
      obtain ⟨first, rest, rfl, hfirst, hrest⟩ := ih h
      exact ⟨first, rest, rfl, .other hkey hother hfirst, hrest⟩

/-- A member with the key of an option sets it. -/
theorem of_cons {key : Spelling} {value : Json Spelling} {setting : Setting}
    (h : Sets ((key, value) :: members) settings) (hkey : Spells key setting.key) :
    ∃ other rest, settings = other :: rest ∧ other.key = setting.key ∧ other.IsValue value ∧
      Sets members rest := by
  cases h with
  | setting hkey' hvalue h => exact ⟨_, _, rfl, hkey'.unique hkey, hvalue, h⟩
  | other hkey' hother h => exact absurd (hkey.unique hkey') (hother setting)

/-- Wherever a member with the key of an option stands, it sets the option. -/
theorem exists_of_mem (h : Sets members settings) {key : Spelling} {value : Json Spelling}
    (hmem : (key, value) ∈ members) {setting : Setting} (hkey : Spells key setting.key) :
    ∃ other ∈ settings, other.key = setting.key ∧ other.IsValue value := by
  obtain ⟨front, back, rfl⟩ := List.append_of_mem hmem
  obtain ⟨first, rest, rfl, -, hrest⟩ := h.of_append
  obtain ⟨other, rest, rfl, hother, hvalue, -⟩ := hrest.of_cons hkey
  exact ⟨other, List.mem_append_right _ List.mem_cons_self, hother, hvalue⟩

/-- Members with the same key set an option twice. -/
theorem not_nodup {key key' : Spelling} {value value' : Json Spelling}
    (h : Sets (front ++ (key, value) :: back) settings) (hmem : (key', value') ∈ back)
    {setting : Setting} (hkey : Spells key setting.key) (hkey' : Spells key' setting.key) :
    ¬ (settings.map Setting.key).Nodup := by
  obtain ⟨first, rest, rfl, -, hrest⟩ := h.of_append
  obtain ⟨other, rest, rfl, hother, -, hback⟩ := hrest.of_cons hkey
  obtain ⟨second, hsecond, hsame, -⟩ := hback.exists_of_mem hmem hkey'
  intro hnodup
  rw [List.map_append, List.map_cons] at hnodup
  obtain ⟨hfresh, -⟩ := List.nodup_cons.1 (List.nodup_append.1 hnodup).2.1
  exact hfresh (List.mem_map.2 ⟨second, hsecond, hsame.trans hother.symm⟩)

end Options.Sets

/-- **Options in JSON.** The text of all options is read as these options. From an object the
defaults are read with the options set that its members set, if each is set at most once, and
nothing else is read. If two members have the key of the same option, or one has a value of another
form, the text is unreadable wherever they stand. -/
theorem options_roundTrip :
    (∀ options : Options, Options.read options.text = .ok options) ∧
    (∀ (text : String) (members : List (Spelling × Json Spelling)),
      read? text = some (.object members) →
      (∀ options, Options.read text = .ok options ↔
        ∃ settings, Options.Sets members settings ∧ (settings.map Setting.key).Nodup ∧
          options = settings.foldl (fun options setting => setting.apply options) {}) ∧
      (∀ front key value back key' value' (setting : Setting),
        members = front ++ (key, value) :: back → (key', value') ∈ back →
        Spells key setting.key → Spells key' setting.key →
        Options.read text = .error .unreadable) ∧
      (∀ key value (setting : Setting), (key, value) ∈ members → Spells key setting.key →
        (∀ other : Setting, other.key = setting.key → ¬ other.IsValue value) →
        Options.read text = .error .unreadable)) ∧
    Error.unreadable.category = .serialization := by
  refine ⟨Options.read_text, fun text members hread => ⟨fun options => Options.read_eq_ok_iff hread,
    fun front key value back key' value' setting hmembers hmem hkey hkey' => ?_,
    fun key value setting hmem hkey hform => ?_⟩, rfl⟩
  · refine Options.read_eq_unreadable fun options hok => ?_
    obtain ⟨settings, hsets, hnodup, -⟩ := (Options.read_eq_ok_iff hread).1 hok
    exact (hmembers ▸ hsets).not_nodup hmem hkey hkey' hnodup
  · refine Options.read_eq_unreadable fun options hok => ?_
    obtain ⟨settings, hsets, -, -⟩ := (Options.read_eq_ok_iff hread).1 hok
    obtain ⟨other, -, hother, hvalue⟩ := hsets.exists_of_mem hmem hkey
    exact hform other hother hvalue

/-- Two options behind a member with another key, under which the key of an option stands again.
With a second value for one of them, or `null` for a truth value, the text is unreadable. -/
theorem options_roundTrip_nested :
    let members : List (List Char × Json (List Char)) :=
      [("seed".toList, .array [.object [("fold_constants".toList, .null)]]),
        ("name_prefix".toList, .string "\n\"é".toList), ("fold_constants".toList, .bool true)]
    let text (more : List Char × Json (List Char)) := (Json.object (members ++ [more])).pretty
    Options.read (Json.object members).pretty =
        .ok { foldConstants := true, namePrefix := some "\n\"é" } ∧
      Options.read (text ("name_prefix".toList, .null)) = .error .unreadable ∧
      Options.read (text ("validate_shapes".toList, .null)) = .error .unreadable := by
  intro members text
  obtain ⟨-, hobject, -⟩ := options_roundTrip
  have hread (more : List (List Char × Json (List Char))) :=
    hobject _ _ (read?_pretty (.object (members ++ more)))
  refine ⟨?_, ?_, ?_⟩
  · obtain ⟨haccepted, -⟩ := hread []
    refine (haccepted _).2 ⟨[.namePrefix (some "\n\"é"), .foldConstants true], ?_, ?_, rfl⟩
    · have hother : ∀ setting : Setting, setting.key ≠ "seed" := by
        intro setting
        cases setting <;> simp [Setting.key]
      refine .other (spells_spell "seed") hother ?_
      refine .setting (spells_spell _) (isText_string "\n\"é") ?_
      exact .setting (spells_spell _) rfl .nil
    · show ["name_prefix", "fold_constants"].Nodup
      decide
  · obtain ⟨-, hrepeated, -⟩ := hread [("name_prefix".toList, .null)]
    exact hrepeated [_] _ _ _ _ _ (.namePrefix none) rfl (.tail _ (.head _)) (spells_spell _)
      (spells_spell _)
  · obtain ⟨-, -, hform⟩ := hread [("validate_shapes".toList, .null)]
    refine hform _ _ (.validateShapes true) (.tail _ (.tail _ (.tail _ (.head _))))
      (spells_spell _) ?_
    intro other hkey hvalue
    cases other with
    | validateShapes value => cases hvalue
    | _ => simp [Setting.key] at hkey

end ComputeGraph
