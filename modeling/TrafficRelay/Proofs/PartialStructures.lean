import Mathlib.Data.List.Nodup
import Mathlib.Data.List.Perm.Basic
import TrafficRelay.Proofs.TypedReadings

/-!
# Structures with fields left out

A structure that is written as an object need not have all its fields, nor have them in
order, and members of other names may stand among them, with any values.  What is read
are the fields that are given; a field that is left out is read as missing.  An object
that gives a field twice is not read at all, and neither is one with a key that is no
string of characters, whether it would be a known name or not.
-/

namespace TrafficRelay

namespace Json

/-! ## Members -/

/-- No surrogate stands alone in the text. -/
def Text.IsString (text : Text) : Prop := ∃ value : String, text = .ofString value

theorem Text.ofString_injective : Function.Injective Text.ofString := by
  intro first second same
  have read := Text.toString?_ofString first
  rw [same, Text.toString?_ofString] at read
  exact (Option.some.inj read).symm

/-- The member with this name and value. -/
def keyed (member : String × Json) : Text × Json := (.ofString member.1, member.2)

theorem keyed_isString (member : String × Json) : (keyed member).1.IsString :=
  ⟨member.1, rfl⟩

theorem keyed_injective : Function.Injective keyed := by
  rintro ⟨name, value⟩ ⟨other, otherValue⟩ same
  obtain ⟨sameName, sameValue⟩ := Prod.mk.inj same
  exact Prod.ext (Text.ofString_injective sameName) sameValue

theorem exists_keyed {members : List (Text × Json)}
    (areStrings : ∀ member ∈ members, member.1.IsString) :
    ∃ named : List (String × Json), members = named.map keyed := by
  induction members with
  | nil => exact ⟨[], rfl⟩
  | cons member members induction =>
      obtain ⟨⟨name, isName⟩, others⟩ := List.forall_mem_cons.mp areStrings
      obtain ⟨named, rfl⟩ := induction others
      refine ⟨(name, member.2) :: named, ?_⟩
      rw [List.map_cons, keyed, ← isName]

theorem members?_eq_some_iff {members : List (Text × Json)} {named : List (String × Json)} :
    members? members = some named ↔ members = named.map keyed := by
  apply mapM_eq_some_iff_eq_map
  rintro ⟨key, value⟩ ⟨name, other⟩
  simp only [Option.map_eq_some_iff, Text.toString?_eq_some_iff, keyed, Prod.mk.injEq]
  constructor
  · rintro ⟨_, isName, rfl, rfl⟩
    exact ⟨isName, rfl⟩
  · rintro ⟨isName, rfl⟩
    exact ⟨name, isName, rfl, rfl⟩

/-- When an object is read as a structure: all its keys are strings, and no field is
given twice. -/
theorem fields?_object_eq_some_iff {names : List String} {members : List (Text × Json)}
    {values : List (Option Json)} :
    (object members).fields? names = some values ↔
      ∃ named : List (String × Json), members = named.map keyed ∧
        (∀ name ∈ names, named.countP (·.1 = name) ≤ 1) ∧
        values = names.map fun name => named.lookup name := by
  rw [fields?, Option.bind_eq_some_iff]
  apply exists_congr
  intro named
  rw [members?_eq_some_iff]
  apply and_congr_right
  intro _
  simp only [List.all_eq_true, decide_eq_true_eq, Option.ite_none_right_eq_some,
    Option.some.injEq]
  exact and_congr_right fun _ => eq_comm

theorem lookup_eq_some_iff {members : List (String × Json)} {name : String} {value : Json}
    (once : members.countP (·.1 = name) ≤ 1) :
    members.lookup name = some value ↔ (name, value) ∈ members := by
  constructor
  · intro found
    obtain ⟨before, after, rfl, -⟩ := List.lookup_eq_some_iff.mp found
    exact List.mem_append_cons_self
  · intro member
    obtain ⟨before, after, rfl⟩ := List.append_of_mem member
    apply List.lookup_eq_some_iff.mpr
    refine ⟨before, after, rfl, ?_⟩
    rw [List.countP_append, List.countP_cons_of_pos (by simp)] at once
    have none : before.countP (·.1 = name) = 0 := by omega
    intro other present
    have different := List.countP_eq_zero.mp none other present
    exact bne_iff_ne.mpr fun same => different (decide_eq_true same.symm)

/-- What is read of a field is the member of its name, if there is one. -/
theorem forall₂_of_fields? {names : List String} {members : List (Text × Json)}
    {values : List (Option Json)} (found : (object members).fields? names = some values) :
    List.Forall₂
      (fun name value? => ∀ value, value? = some value ↔ (.ofString name, value) ∈ members)
      names values := by
  obtain ⟨named, rfl, once, rfl⟩ := fields?_object_eq_some_iff.mp found
  rw [List.forall₂_map_right_iff, List.forall₂_same]
  intro name known value
  rw [lookup_eq_some_iff (once name known)]
  exact (List.mem_map_of_injective keyed_injective).symm

/-! ## Overlays -/

/-- A field of a structure: its name, when it may be left out, and which values it may
be given. -/
structure Field where
  name : String
  optional : Prop
  accepts : Json → Prop

/-- What may be read of a field. -/
def Field.Fits (field : Field) : Option Json → Prop
  | none => field.optional
  | some value => field.accepts value

/-- The members are those of the fields, in their order, but for some that may be left
out. -/
inductive Given : List Field → List (String × Json) → Prop where
  | nil : Given [] []
  | leave {field : Field} {fields : List Field} {members : List (String × Json)} :
      field.optional → Given fields members → Given (field :: fields) members
  | give {field : Field} {fields : List Field} {value : Json}
      {members : List (String × Json)} :
      field.accepts value → Given fields members →
      Given (field :: fields) ((field.name, value) :: members)

/-- An object with some of these fields, in any order, and among them members of other
names, with any values.  Their names are texts of which `isName` holds. -/
def Overlays (isName : Text → Prop) (fields : List Field) (json : Json) : Prop :=
  ∃ given others members, Given fields given ∧
    (∀ other ∈ others, isName other.1 ∧
      ∀ field ∈ fields, other.1 ≠ Text.ofString field.name) ∧
    members.Perm (given.map keyed ++ others) ∧ json = object members

namespace Given

variable {fields : List Field} {members : List (String × Json)}

theorem sublist (given : Given fields members) :
    (members.map Prod.fst).Sublist (fields.map Field.name) := by
  induction given with
  | nil => exact .slnil
  | leave _ _ induction => exact .cons _ induction
  | give _ _ induction => exact .cons_cons _ induction

theorem name_mem (given : Given fields members) {name : String} {value : Json}
    (member : (name, value) ∈ members) : name ∈ fields.map Field.name :=
  given.sublist.subset (List.mem_map_of_mem member)

theorem once (given : Given fields members) (distinct : (fields.map Field.name).Nodup)
    (name : String) : members.countP (·.1 = name) ≤ 1 := by
  have count := List.nodup_iff_count_le_one.mp (given.sublist.nodup distinct) name
  rwa [List.count, List.countP_map] at count

/-- A field is given a value that it may have, or left out. -/
theorem of_mem (given : Given fields members) (distinct : (fields.map Field.name).Nodup)
    {field : Field} (member : field ∈ fields) :
    (∃ value, (field.name, value) ∈ members ∧ field.accepts value) ∨
      field.optional ∧ ∀ value, (field.name, value) ∉ members := by
  induction given with
  | nil => cases member
  | leave optional given induction =>
      obtain ⟨noRepeat, distinct⟩ := List.nodup_cons.mp distinct
      rcases List.mem_cons.mp member with rfl | later
      · exact Or.inr ⟨optional, fun _ present => noRepeat (given.name_mem present)⟩
      · exact induction distinct later
  | give accepts given induction =>
      obtain ⟨noRepeat, distinct⟩ := List.nodup_cons.mp distinct
      rcases List.mem_cons.mp member with rfl | later
      · exact Or.inl ⟨_, List.mem_cons_self, accepts⟩
      · rcases induction distinct later with ⟨value, present, accepted⟩ | ⟨optional, absent⟩
        · exact Or.inl ⟨value, List.mem_cons_of_mem _ present, accepted⟩
        · refine Or.inr ⟨optional, fun value present => ?_⟩
          rcases List.mem_cons.mp present with same | present
          · apply noRepeat
            rw [← (Prod.mk.inj same).1]
            exact List.mem_map_of_mem later
          · exact absent value present

end Given

/-- Of an overlay every field is read as it was given. -/
theorem Overlays.fields? {fields : List Field} {json : Json}
    (overlays : Overlays Text.IsString fields json) {names : List String}
    (distinct : names.Nodup) (named : fields.map Field.name = names) :
    ∃ values, json.fields? names = some values ∧
      List.Forall₂ Field.Fits fields values := by
  subst named
  obtain ⟨given, others, members, isGiven, unknown, shuffled, rfl⟩ := overlays
  obtain ⟨others, rfl⟩ := exists_keyed fun other member => (unknown other member).1
  rw [← List.map_append] at shuffled
  have areStrings : ∀ member ∈ members, member.1.IsString := by
    intro member present
    obtain ⟨named, -, rfl⟩ := List.mem_map.mp (shuffled.mem_iff.mp present)
    exact keyed_isString named
  -- All keys are strings, so the shuffled members can be compared by their names.
  obtain ⟨named, rfl⟩ := exists_keyed areStrings
  have shuffled := (List.map_perm_map_iff keyed_injective).mp shuffled
  have absent (field : Field) (known : field ∈ fields) (value : Json) :
      (field.name, value) ∉ others := fun present =>
    (unknown _ (List.mem_map_of_mem present)).2 field known rfl
  have once : ∀ name ∈ fields.map Field.name, named.countP (·.1 = name) ≤ 1 := by
    intro name isName
    obtain ⟨field, known, rfl⟩ := List.mem_map.mp isName
    have none : others.countP (·.1 = field.name) = 0 := by
      apply List.countP_eq_zero.mpr
      rintro ⟨name, value⟩ present same
      obtain rfl : name = field.name := of_decide_eq_true same
      exact absent field known value present
    rw [shuffled.countP_eq, List.countP_append, none]
    exact isGiven.once distinct field.name
  refine ⟨_, fields?_object_eq_some_iff.mpr ⟨named, rfl, once, rfl⟩, ?_⟩
  rw [List.map_map, List.forall₂_map_right_iff, List.forall₂_same]
  intro field known
  have found (value : Json) : named.lookup field.name = some value ↔
      (field.name, value) ∈ given := by
    rw [lookup_eq_some_iff (once _ (List.mem_map_of_mem known)), shuffled.mem_iff,
      List.mem_append, or_iff_left (absent field known value)]
  show field.Fits (named.lookup field.name)
  rcases isGiven.of_mem distinct known with ⟨value, present, accepts⟩ | ⟨optional, left⟩
  · rw [(found value).mpr present]
    exact accepts
  · cases missing : named.lookup field.name with
    | none => exact optional
    | some value => exact (left value ((found value).mp missing)).elim

/-- The object with all fields in their order is one of the overlays. -/
theorem overlays_ofFields {isName : Text → Prop} {fields : List Field}
    {members : List (String × Json)}
    (all : List.Forall₂ (fun field member => field.name = member.1 ∧ field.accepts member.2)
      fields members) : Overlays isName fields (ofFields members) := by
  refine ⟨members, [], members.map keyed, ?_, ?_, ?_, rfl⟩
  · induction all with
    | nil => exact .nil
    | @cons field member fields members first others induction =>
        obtain ⟨name, value⟩ := member
        obtain ⟨rfl, accepts⟩ := first
        exact .give accepts induction
  · exact fun other none => absurd none List.not_mem_nil
  · rw [List.append_nil]

/-- A field is read as its value if it is given one that is read so, and left out only
where its default is that value. -/
theorem orDefault_of_fits {α : Type} {read? : Json → Option α} {default result : α}
    {field : Field} {value? : Option Json} (fits : field.Fits value?)
    (left : field.optional → default = result)
    (given : ∀ value, field.accepts value → read? value = some result) :
    orDefault read? default value? = some result := by
  cases value? with
  | none => exact congrArg some (left fits)
  | some value => exact given value fits

theorem Field.Fits.exists_value {field : Field} {value? : Option Json}
    (fits : field.Fits value?) (required : ¬field.optional) :
    ∃ value, value? = some value ∧ field.accepts value := by
  cases value? with
  | none => exact (required fits).elim
  | some value => exact ⟨value, rfl, fits⟩

/-- An array of values that stand for these items, one for each. -/
def StandsFor {α : Type} (standsFor : α → Json → Prop) (items : List α) (json : Json) : Prop :=
  ∃ values, json = array values ∧ List.Forall₂ standsFor items values

section

variable {α : Type} {standsFor : α → Json → Prop} {items : List α} {json : Json}

theorem StandsFor.list? {read? : Json → Option α} (stands : StandsFor standsFor items json)
    (read : ∀ item value, standsFor item value → read? value = some item) :
    json.list? read? = some items := by
  obtain ⟨values, rfl, all⟩ := stands
  exact mapM_eq_some_iff.mpr (all.flip.imp fun value item => read item value)

theorem exists_of_mem_list? {read? : Json → Option α} {values : List Json}
    (read : (array values).list? read? = some items) {value : Json} (member : value ∈ values) :
    ∃ item, read? value = some item := by
  have all := mapM_eq_some_iff.mp read
  clear read
  induction all with
  | nil => cases member
  | cons first others induction =>
      rcases List.mem_cons.mp member with rfl | later
      · exact ⟨_, first⟩
      · exact induction later

theorem standsFor_ofList {write : α → Json}
    (written : ∀ item, standsFor item (write item)) :
    StandsFor standsFor items (ofList write items) := by
  refine ⟨items.map write, rfl, ?_⟩
  rw [List.forall₂_map_right_iff, List.forall₂_same]
  exact fun item _ => written item

end

/-! ## Refusals -/

/-- A field is given twice, or a key is no string of characters. -/
inductive Refused (names : List String) : Json → Prop where
  | repeats {members : List (Text × Json)} {name : String} :
      name ∈ names → 1 < members.countP (·.1 = .ofString name) →
      Refused names (.object members)
  | misnames {members : List (Text × Json)} {member : Text × Json} :
      member ∈ members → ¬member.1.IsString → Refused names (.object members)

theorem Refused.fields? {names : List String} {json : Json} (refused : Refused names json) :
    json.fields? names = none := by
  apply Option.eq_none_iff_forall_ne_some.mpr
  intro values found
  cases refused with
  | @repeats members name known twice =>
      obtain ⟨named, rfl, once, -⟩ := fields?_object_eq_some_iff.mp found
      have same : (named.map keyed).countP (·.1 = .ofString name) =
          named.countP (·.1 = name) := by
        rw [List.countP_map]
        apply List.countP_congr
        intro member _
        simp [keyed, Text.ofString_injective.eq_iff]
      rw [same] at twice
      exact Nat.not_lt.mpr (once name known) twice
  | misnames present misnamed =>
      obtain ⟨named, rfl, -⟩ := fields?_object_eq_some_iff.mp found
      obtain ⟨member, -, rfl⟩ := List.mem_map.mp present
      exact misnamed (keyed_isString member)

/-- Nothing is read of what is refused. -/
theorem Refused.not_read {α : Type} {names : List String} {json : Json}
    (refused : Refused names json) {next : List (Option Json) → Option α} {result : α} :
    (json.fields? names >>= next) ≠ some result := by
  rw [refused.fields?]
  exact Option.some_ne_none result ∘ Eq.symm

end Json

end TrafficRelay
