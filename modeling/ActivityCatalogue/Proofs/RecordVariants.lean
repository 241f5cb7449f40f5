import Mathlib
import ActivityCatalogue.Json.Record
import ActivityCatalogue.Json.Tagged

/-!
# Variants of records in JSON

A record may be written in more ways than one: with its members in another
order, with members that it does not know, and without those that hold what is
assumed anyway.  `recordVariation` says which values stand for the same record,
given the fields that the record has; the values of the fields may vary in their
turn, so that records within records and lists vary on every level.

A reader of fields sees none of this.  It finds for each field a variant of the
value that was written, or nothing if that value is the default
(`fields?_of_variation`).
-/

namespace ActivityCatalogue

namespace Json

/-! ## Variations -/

/-- Which values may stand for a value. -/
abbrev Variation := Json → Json → Prop

/-- A text, a truth value, null or an integer of 64 bits. -/
inductive IsScalar : Json → Prop
  | null : IsScalar null
  | bool (value : Bool) : IsScalar (bool value)
  | text (text : String) : IsScalar (ofText text)
  | natural {number : Nat} (hnumber : number < 2 ^ 64) : IsScalar (natural number)
  | negative {number : Nat} (hnumber : number ≤ 2 ^ 63) : IsScalar (decimal true number 0)

/-- A field of a record: its name, what may stand for its value, and the value that is assumed
where the field is not given. -/
structure Field where
  name : String
  variation : Variation
  default? : Option Json

/-- A field whose value is written in one way only. -/
def Field.exact (name : String) (default? : Option Json) : Field := ⟨name, Eq, default?⟩

/-- Each member is kept with a variant of its value, or dropped if its value is the default. -/
inductive Keeps : List Field → (members kept : List (String × Json)) → Prop
  | nil : Keeps [] [] []
  | varied {field : Field} {fields : List Field} {value other : Json}
      {members kept : List (String × Json)} (hvalue : field.variation value other)
      (hrest : Keeps fields members kept) :
      Keeps (field :: fields) ((field.name, value) :: members) ((field.name, other) :: kept)
  | dropped {field : Field} {fields : List Field} {value : Json}
      {members kept : List (String × Json)} (hdefault : field.default? = some value)
      (hrest : Keeps fields members kept) :
      Keeps (field :: fields) ((field.name, value) :: members) kept

/-- The members `all` are those of the record that are kept and unknown ones, in any order. -/
def VariesMembers (fields : List Field) (members all : List (String × Json)) : Prop :=
  ∃ kept unknown, Keeps fields members kept ∧
    (∀ member ∈ unknown, member.1 ∉ fields.map Field.name ∧ IsScalar member.2) ∧
    all.Perm (kept ++ unknown)

theorem VariesMembers.of_perm {fields : List Field} {members all moved : List (String × Json)}
    (hvaries : VariesMembers fields members all) (hmoved : moved.Perm all) :
    VariesMembers fields members moved := by
  obtain ⟨kept, unknown, hkeeps, hunknown, hall⟩ := hvaries
  exact ⟨kept, unknown, hkeeps, hunknown, hmoved.trans hall⟩

/-- A record with these fields, in an object. -/
def recordVariation (fields : List Field) : Variation := fun json other =>
  ∃ members all, json = ofMembers members ∧ VariesMembers fields members all ∧
    other = ofMembers all

/-- A list whose items vary, each for itself. -/
def listVariation (variation : Variation) : Variation := fun json other =>
  ∃ items others, json = list items ∧ List.Forall₂ variation items others ∧ other = list others

theorem ofMembers_injective : Function.Injective ofMembers := by
  intro first second heq
  have hname : Function.Injective fun member : String × Json =>
      ((some member.1, member.2) : JsonText × Json) := by
    intro member other hmember
    obtain ⟨hfirst, hsecond⟩ := Prod.mk.inj hmember
    exact Prod.ext (Option.some.inj hfirst) hsecond
  exact List.map_injective_iff.mpr hname (Json.object.inj heq)

theorem recordVariation_ofMembers {fields : List Field} {members : List (String × Json)}
    {other : Json} (hvaries : recordVariation fields (ofMembers members) other) :
    ∃ all, VariesMembers fields members all ∧ other = ofMembers all := by
  obtain ⟨written, all, hwritten, hall, rfl⟩ := hvaries
  obtain rfl := ofMembers_injective hwritten
  exact ⟨all, hall, rfl⟩

/-! ## Looking up -/

theorem lookup_eq_of_perm {α : Type} {first second : List (String × α)}
    (hperm : first.Perm second) (hnodup : (first.map Prod.fst).Nodup) (name : String) :
    first.lookup name = second.lookup name := by
  induction hperm with
  | nil => rfl
  | cons entry _ ih =>
      rw [List.lookup_cons, List.lookup_cons, ih (List.nodup_cons.mp hnodup).2]
  | swap entry other rest =>
      obtain ⟨name', value⟩ := entry
      obtain ⟨otherName, otherValue⟩ := other
      have hne : otherName ≠ name' := by
        rintro rfl
        exact (List.nodup_cons.mp hnodup).1 List.mem_cons_self
      rw [List.lookup_cons, List.lookup_cons, List.lookup_cons, List.lookup_cons]
      by_cases hentry : name = name'
      · subst hentry
        rw [beq_self_eq_true, beq_false_of_ne hne.symm]
      · rw [beq_false_of_ne hentry]
  | trans hfirst _ ih ih' =>
      exact (ih hnodup).trans (ih' ((hfirst.map Prod.fst).nodup_iff.mp hnodup))

theorem lookup_eq_none_of_not_mem {α : Type} {entries : List (String × α)} {name : String}
    (hname : name ∉ entries.map Prod.fst) : entries.lookup name = none := by
  rw [List.lookup_eq_none_iff]
  intro entry hentry
  have hne : name ≠ entry.1 := by
    rintro rfl
    exact hname (List.mem_map_of_mem hentry)
  exact bne_iff_ne.mpr hne

/-- What a reader finds for the value of a field: a variant of it, or nothing if it is the
default. -/
def Field.Gives (field : Field) (value : Json) (found : Option Json) : Prop :=
  (∃ other, field.variation value other ∧ found = some other) ∨
    field.default? = some value ∧ found = none

theorem Keeps.names {fields : List Field} {members kept : List (String × Json)}
    (hkeeps : Keeps fields members kept) :
    (kept.map Prod.fst).Sublist (fields.map Field.name) := by
  induction hkeeps with
  | nil => exact List.Sublist.refl _
  | varied _ _ ih => exact ih.cons_cons _
  | dropped _ _ ih => exact ih.cons _

theorem Keeps.gives {fields : List Field} {members kept : List (String × Json)}
    (hkeeps : Keeps fields members kept) (hnodup : (fields.map Field.name).Nodup)
    (found : String → Option Json)
    (hfound : ∀ field ∈ fields, found field.name = kept.lookup field.name) :
    List.Forall₂ (fun field member => Field.Gives field member.2 (found field.name)) fields
      members := by
  induction hkeeps with
  | nil => exact .nil
  | @varied field fields value other members kept hvalue hrest ih =>
      obtain ⟨hfresh, hnodup⟩ := List.nodup_cons.mp hnodup
      obtain ⟨hhead, htail⟩ := List.forall_mem_cons.mp hfound
      refine .cons (Or.inl ⟨other, hvalue, ?_⟩) (ih hnodup fun next hnext => ?_)
      · rw [hhead, List.lookup_cons, beq_self_eq_true]
      · have hne : (next.name == field.name) = false := by
          refine beq_false_of_ne fun heq => hfresh ?_
          rw [← heq]
          exact List.mem_map_of_mem hnext
        rw [htail next hnext, List.lookup_cons, hne]
  | @dropped field fields value members kept hdefault hrest ih =>
      obtain ⟨hfresh, hnodup⟩ := List.nodup_cons.mp hnodup
      obtain ⟨hhead, htail⟩ := List.forall_mem_cons.mp hfound
      refine .cons (Or.inr ⟨hdefault, ?_⟩) (ih hnodup htail)
      rw [hhead]
      exact lookup_eq_none_of_not_mem fun hname => hfresh (hrest.names.subset hname)

/-! ## Reading the fields of a variant -/

theorem mapM_named (members : List (String × Json)) :
    (members.map fun member => ((some member.1, member.2) : JsonText × Json)).mapM
      (fun (name, value) => name.map (·, value)) = some members := by
  rw [List.mapM_map]
  exact List.mapM_pure.trans (congrArg some (List.map_id members))

/-- The fields of an object among the names, if none of them occurs twice. -/
theorem fields?_of_nodup {names : List String} {members : List (String × Json)}
    (hnodup : ((members.filter fun field => names.contains field.1).map Prod.fst).Nodup) :
    (ofMembers members).fields? names =
      some (members.filter fun field => names.contains field.1) := by
  simp only [fields?, ofMembers, mapM_named]
  simp only [Option.bind_eq_bind, Option.bind_some, hnodup, if_true]

theorem fields?_of_variesMembers {fields : List Field} {members all : List (String × Json)}
    (hvaries : VariesMembers fields members all) (hnodup : (fields.map Field.name).Nodup) :
    ∃ given, (ofMembers all).fields? (fields.map Field.name) = some given ∧
      List.Forall₂ (fun field member => Field.Gives field member.2 (given.lookup field.name))
        fields members := by
  obtain ⟨kept, unknown, hkeeps, hunknown, hall⟩ := hvaries
  have hkeptNames := hkeeps.names
  have hknown : (all.filter fun field => (fields.map Field.name).contains field.1).Perm kept := by
    have hfiltered := hall.filter fun field => (fields.map Field.name).contains field.1
    have hkept : ∀ member ∈ kept, (fields.map Field.name).contains member.1 = true := by
      intro member hmember
      exact List.contains_iff_mem.mpr (hkeptNames.subset (List.mem_map_of_mem hmember))
    have hnone : ∀ member ∈ unknown, ¬(fields.map Field.name).contains member.1 = true := by
      intro member hmember hcontains
      exact (hunknown member hmember).1 (List.contains_iff_mem.mp hcontains)
    rwa [List.filter_append, List.filter_eq_self.mpr hkept, List.filter_eq_nil_iff.mpr hnone,
      List.append_nil] at hfiltered
  have hkeptNodup : (kept.map Prod.fst).Nodup := hkeptNames.nodup hnodup
  have hknownNodup := (hknown.map Prod.fst).nodup_iff.mpr hkeptNodup
  have hgiven := fields?_of_nodup hknownNodup
  generalize (all.filter fun field => (fields.map Field.name).contains field.1) = known at *
  refine ⟨known, hgiven, hkeeps.gives hnodup (fun name => known.lookup name) ?_⟩
  intro field _
  exact lookup_eq_of_perm hknown hknownNodup field.name

theorem fields?_of_variation {fields : List Field} {members : List (String × Json)} {other : Json}
    (hvaries : recordVariation fields (ofMembers members) other)
    (hnodup : (fields.map Field.name).Nodup) :
    ∃ given, other.fields? (fields.map Field.name) = some given ∧
      List.Forall₂ (fun field member => Field.Gives field member.2 (given.lookup field.name))
        fields members := by
  obtain ⟨all, hall, rfl⟩ := recordVariation_ofMembers hvaries
  exact fields?_of_variesMembers hall hnodup

/-- A field that has to be given, if every variant of its value is read as `result`. -/
theorem Field.Gives.required {α : Type} {field : Field} {value : Json} {given : Fields}
    (hgives : field.Gives value (given.lookup field.name)) (hneeded : field.default? = none)
    {read : Json → Option α} {result : α}
    (hread : ∀ other, field.variation value other → read other = some result) :
    given.required field.name read = some result := by
  rcases hgives with ⟨other, hother, hfound⟩ | ⟨hdefault, -⟩
  · rw [Fields.required, hfound]
    exact hread other hother
  · rw [hneeded] at hdefault
    exact nomatch hdefault

/-- A field with a default, if the default is read as what is assumed where it is not given. -/
theorem Field.Gives.optional {α : Type} {field : Field} {value default : Json} {given : Fields}
    (hgives : field.Gives value (given.lookup field.name))
    (hdefault : field.default? = some default) (read : Json → Option α) {absent result : α}
    (habsent : read default = some absent) (hself : field.variation value value)
    (hread : ∀ other, field.variation value other → read other = some result) :
    given.optional field.name read absent = some result := by
  rcases hgives with ⟨other, hother, hfound⟩ | ⟨hvalue, hfound⟩
  · rw [Fields.optional, hfound]
    exact hread other hother
  · obtain rfl : default = value := Option.some.inj (hdefault.symm.trans hvalue)
    rw [Fields.optional, hfound, ← habsent]
    exact hread default hself

theorem Field.Gives.required_exact {α : Type} {name : String} {value : Json} {given : Fields}
    (hgives : (Field.exact name none).Gives value (given.lookup name)) (read : Json → Option α)
    {result : α} (hread : read value = some result) : given.required name read = some result :=
  Field.Gives.required hgives rfl fun _ hother => hother ▸ hread

theorem Field.Gives.optional_exact {α : Type} {name : String} {value default : Json}
    {given : Fields} (hgives : (Field.exact name (some default)).Gives value (given.lookup name))
    (read : Json → Option α) {absent result : α} (habsent : read default = some absent)
    (hread : read value = some result) : given.optional name read absent = some result :=
  Field.Gives.optional hgives rfl read habsent rfl fun _ hother => hother ▸ hread

/-- Items that are read back from all their variants make a list that is. -/
theorem asListOf?_of_variation {α : Type} {variation : Variation} {write : α → Json}
    {read : Json → Option α}
    (hread : ∀ item other, variation (write item) other → read other = some item)
    {items : List α} {other : Json}
    (hvaries : listVariation variation (list (items.map write)) other) :
    asListOf? read other = some items := by
  obtain ⟨written, others, hwritten, hall, rfl⟩ := hvaries
  obtain rfl : items.map write = written := Json.list.inj hwritten
  rw [asListOf?]
  induction items generalizing others with
  | nil =>
      cases hall
      rfl
  | cons item items ih =>
      obtain ⟨other, rest, hother, hrest, rfl⟩ := List.forall₂_cons_left_iff.mp hall
      rw [List.mapM_cons, hread item other hother, ih rest rfl hrest]
      rfl

/-! ## Every value is a variant of itself -/

theorem keeps_self {fields : List Field} {members : List (String × Json)}
    (hmembers : List.Forall₂ (fun field member => member.1 = field.name ∧
      field.variation member.2 member.2) fields members) : Keeps fields members members := by
  induction hmembers with
  | nil => exact .nil
  | @cons field member fields members hmember _ ih =>
      obtain ⟨name, value⟩ := member
      obtain ⟨rfl, hvalue⟩ := hmember
      exact .varied hvalue ih

theorem recordVariation_self {fields : List Field} {members : List (String × Json)}
    (hmembers : List.Forall₂ (fun field member => member.1 = field.name ∧
      field.variation member.2 member.2) fields members) :
    recordVariation fields (ofMembers members) (ofMembers members) := by
  refine ⟨members, members, rfl, ⟨members, [], keeps_self hmembers, nofun, ?_⟩, rfl⟩
  rw [List.append_nil]

theorem listVariation_self {α : Type} {variation : Variation} {write : α → Json}
    (hself : ∀ item, variation (write item) (write item)) (items : List α) :
    listVariation variation (list (items.map write)) (list (items.map write)) := by
  refine ⟨_, _, rfl, ?_, rfl⟩
  rw [List.forall₂_same]
  intro json hjson
  obtain ⟨item, -, rfl⟩ := List.mem_map.mp hjson
  exact hself item

/-- A field with a list that is empty where it is not given. -/
theorem Field.Gives.optional_list {α : Type} {name : String} {variation : Variation}
    {write : α → Json} {given : Fields} {items : List α}
    (hgives : Field.Gives ⟨name, listVariation variation, some (list [])⟩
      (list (items.map write)) (given.lookup name))
    (hself : ∀ item, variation (write item) (write item)) {read : Json → Option α}
    (hread : ∀ item other, variation (write item) other → read other = some item) :
    given.optional name (asListOf? read) [] = some items :=
  Field.Gives.optional hgives rfl (asListOf? read) rfl (listVariation_self hself items)
    fun _ hlist => asListOf?_of_variation hread hlist

/-! ## Tagged records -/

theorem Keeps.swap {first second : Field} {fields : List Field} {member other : String × Json}
    {members kept : List (String × Json)}
    (hkeeps : Keeps (first :: second :: fields) (member :: other :: members) kept) :
    ∃ swapped, kept.Perm swapped ∧
      Keeps (second :: first :: fields) (other :: member :: members) swapped := by
  cases hkeeps with
  | varied hfirst hkeeps =>
      cases hkeeps with
      | varied hsecond hrest => exact ⟨_, .swap _ _ _, .varied hsecond (.varied hfirst hrest)⟩
      | dropped hsecond hrest => exact ⟨_, .refl _, .dropped hsecond (.varied hfirst hrest)⟩
  | dropped hfirst hkeeps =>
      cases hkeeps with
      | varied hsecond hrest => exact ⟨_, .refl _, .varied hsecond (.dropped hfirst hrest)⟩
      | dropped hsecond hrest => exact ⟨_, .refl _, .dropped hsecond (.dropped hfirst hrest)⟩

/-- The order of the fields plays no part. -/
theorem VariesMembers.swap {first second : Field} {fields : List Field}
    {member other : String × Json} {members all : List (String × Json)}
    (hvaries : VariesMembers (first :: second :: fields) (member :: other :: members) all) :
    VariesMembers (second :: first :: fields) (other :: member :: members) all := by
  obtain ⟨kept, unknown, hkeeps, hunknown, hall⟩ := hvaries
  obtain ⟨swapped, hswapped, hkeeps⟩ := hkeeps.swap
  refine ⟨swapped, unknown, hkeeps, fun entry hentry => ?_,
    hall.trans (hswapped.append_right unknown)⟩
  have hnames : (Field.name second :: first.name :: fields.map Field.name).Perm
      (first.name :: second.name :: fields.map Field.name) := .swap _ _ _
  obtain ⟨hname, hscalar⟩ := hunknown entry hentry
  exact ⟨fun hmem => hname (hnames.mem_iff.mp hmem), hscalar⟩

theorem tagged?_ofMembers (tag : String) (members : List (String × Json)) {kind : String}
    (hkind : members.filter (fun member => member.1 == tag) = [(tag, ofText kind)]) :
    (ofMembers members).tagged? tag =
      some (kind, ofMembers (members.filter fun member => !(member.1 == tag))) := by
  have hname : (fun member : JsonText × Json => member.1 == some tag) ∘
      (fun member : String × Json => (some member.1, member.2)) =
        fun member => member.1 == tag := rfl
  have hothers : (not ∘ fun member : JsonText × Json => member.1 == some tag) ∘
      (fun member : String × Json => (some member.1, member.2)) =
        fun member => !(member.1 == tag) := rfl
  rw [ofMembers, tagged?, List.partition_eq_filter_filter, List.filter_map, List.filter_map,
    hname, hothers, hkind]
  rfl

/-- The tag is found wherever it stands, and the other members vary as they did. -/
theorem tagged?_of_variesMembers {tag kind : String} {fields : List Field}
    {members all : List (String × Json)}
    (hvaries : VariesMembers (Field.exact tag none :: fields) ((tag, ofText kind) :: members) all)
    (htag : tag ∉ fields.map Field.name) :
    ∃ others, (ofMembers all).tagged? tag = some (kind, ofMembers others) ∧
      VariesMembers fields members others := by
  obtain ⟨kept, unknown, hkeeps, hunknown, hall⟩ := hvaries
  cases hkeeps with
  | dropped hdefault _ => exact nomatch hdefault
  | @varied _ _ _ other _ kept hvalue hrest =>
      obtain rfl : ofText kind = other := hvalue
      have hotherKept : ∀ member ∈ kept, (member.1 == tag) = false := by
        intro member hmember
        refine beq_false_of_ne fun heq => htag ?_
        rw [← heq]
        exact hrest.names.subset (List.mem_map_of_mem hmember)
      have hotherUnknown : ∀ member ∈ unknown, (member.1 == tag) = false := by
        intro member hmember
        refine beq_false_of_ne fun heq => (hunknown member hmember).1 ?_
        rw [heq]
        exact List.mem_cons_self
      have hother : ∀ member ∈ kept ++ unknown, (member.1 == tag) = false :=
        List.forall_mem_append.mpr ⟨hotherKept, hotherUnknown⟩
      have hall : all.Perm ((tag, ofText kind) :: (kept ++ unknown)) := hall
      have hnone : (kept ++ unknown).filter (fun member => member.1 == tag) = [] :=
        List.filter_eq_nil_iff.mpr fun member hmember => by simp [hother member hmember]
      have hself : (kept ++ unknown).filter (fun member => !(member.1 == tag)) = kept ++ unknown :=
        List.filter_eq_self.mpr fun member hmember => by simp [hother member hmember]
      have hkind : all.filter (fun member => member.1 == tag) = [(tag, ofText kind)] := by
        have hfiltered := hall.filter fun member => member.1 == tag
        rw [List.filter_cons_of_pos (by simp), hnone] at hfiltered
        exact List.perm_singleton.mp hfiltered
      refine ⟨_, tagged?_ofMembers tag all hkind, kept, unknown, hrest, ?_, ?_⟩
      · intro member hmember
        obtain ⟨hname, hscalar⟩ := hunknown member hmember
        exact ⟨fun hmem => hname (List.mem_cons_of_mem tag hmem), hscalar⟩
      · have hfiltered := hall.filter fun member => !(member.1 == tag)
        rwa [List.filter_cons_of_neg (by simp), hself] at hfiltered

/-- A record whose tag is written behind its first field. -/
theorem tagged?_of_variation {tag kind : String} {first : Field} {fields : List Field}
    {member : String × Json} {members : List (String × Json)} {other : Json}
    (hvaries : recordVariation (first :: Field.exact tag none :: fields)
      (ofMembers (member :: (tag, ofText kind) :: members)) other)
    (htag : tag ∉ (first :: fields).map Field.name) :
    ∃ others, other.tagged? tag = some (kind, ofMembers others) ∧
      VariesMembers (first :: fields) (member :: members) others := by
  obtain ⟨all, hall, rfl⟩ := recordVariation_ofMembers hvaries
  exact tagged?_of_variesMembers hall.swap htag

/-! ### What is kept until the kind is known -/

/-- The whole numbers of 64 bits are in floating-point range. -/
theorem fitsStepwise_of_lt {number : Nat} (hnumber : number < 2 ^ 64) :
    Decimal.fitsStepwise number 0 = true := by
  have hword : Decimal.leadingWord number = (number, 0) := Decimal.leadingWord_of_lt hnumber
  have hone : Decimal.roundBinary 1 = 1 := Decimal.roundBinary_of_lt (by decide)
  have hstep : Decimal.binaryStep number ≤ 2 ^ 64 := by
    have hlog : number.log2 < 64 := by
      by_cases hzero : number = 0
      · rw [hzero, Nat.log2_zero]
        decide
      · exact (Nat.log2_lt hzero).mpr hnumber
    exact Nat.pow_le_pow_right (by decide) (by omega)
  have hnear := (Decimal.roundBinary_near number).1
  have hbound : Decimal.roundBinary number < Decimal.doubleBound := by
    have hlarge : 2 ^ 66 < Decimal.doubleBound := by decide +kernel
    omega
  rw [Decimal.fitsStepwise, hword]
  show (number == 0 || decide ((0 : Int) + 0 < 0) || (decide ((0 : Int) + 0 ≤ Decimal.maxPower) &&
    decide (Decimal.roundBinary number * Decimal.roundBinary 1 < Decimal.doubleBound))) = true
  rw [hone, Nat.mul_one, decide_eq_true hbound]
  simp

theorem IsScalar.isKept {json : Json} (hscalar : IsScalar json) (depth : Nat) :
    json.isKept depth = true := by
  cases hscalar with
  | null => rfl
  | bool value => rfl
  | text text => rfl
  | natural hnumber => exact fitsStepwise_of_lt hnumber
  | negative hnumber => exact fitsStepwise_of_lt (hnumber.trans_lt (by decide))

theorem areMembersKept_cons (depth : Nat) (name : JsonText) (value : Json)
    (rest : List (JsonText × Json)) : areMembersKept depth ((name, value) :: rest) =
      (name.isSome && value.isKept depth && areMembersKept depth rest) := rfl

theorem areMembersKept_of_isScalar {members : List (String × Json)}
    (hmembers : ∀ member ∈ members, IsScalar member.2) (depth : Nat) :
    areMembersKept depth (members.map fun member => (some member.1, member.2)) = true := by
  induction members with
  | nil => rfl
  | cons member members ih =>
      obtain ⟨hmember, hmembers⟩ := List.forall_mem_cons.mp hmembers
      rw [List.map_cons, areMembersKept_cons, hmember.isKept, ih hmembers]
      rfl

theorem Keeps.isScalar {fields : List Field} {members kept : List (String × Json)}
    (hkeeps : Keeps fields members kept) (hexact : ∀ field ∈ fields, field.variation = Eq)
    (hmembers : ∀ member ∈ members, IsScalar member.2) : ∀ member ∈ kept, IsScalar member.2 := by
  induction hkeeps with
  | nil => exact nofun
  | varied hvalue _ ih =>
      obtain ⟨hfield, hexact⟩ := List.forall_mem_cons.mp hexact
      obtain ⟨hmember, hmembers⟩ := List.forall_mem_cons.mp hmembers
      rw [hfield] at hvalue
      subst hvalue
      exact List.forall_mem_cons.mpr ⟨hmember, ih hexact hmembers⟩
  | dropped _ _ ih =>
      exact ih (List.forall_mem_cons.mp hexact).2 (List.forall_mem_cons.mp hmembers).2

/-- A record of scalars is kept, and so are all its variants. -/
theorem isKept_of_variation {fields : List Field} {members : List (String × Json)} {other : Json}
    (hvaries : recordVariation fields (ofMembers members) other)
    (hexact : ∀ field ∈ fields, field.variation = Eq)
    (hmembers : ∀ member ∈ members, IsScalar member.2) {depth : Nat} (hdepth : depth ≠ 0) :
    other.isKept depth = true := by
  obtain ⟨all, ⟨kept, unknown, hkeeps, hunknown, hall⟩, rfl⟩ := recordVariation_ofMembers hvaries
  have hscalars : ∀ member ∈ all, IsScalar member.2 := by
    intro member hmember
    rcases List.mem_append.mp (hall.mem_iff.mp hmember) with hmember | hmember
    · exact hkeeps.isScalar hexact hmembers member hmember
    · exact (hunknown member hmember).2
  exact Bool.and_eq_true_iff.mpr
    ⟨bne_iff_ne.mpr hdepth, areMembersKept_of_isScalar hscalars (depth - 1)⟩

end Json

end ActivityCatalogue
