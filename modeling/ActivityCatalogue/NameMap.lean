/-!
# Maps in ordinal order of names

A finite map from names to values, kept as a list in strictly ascending
ordinal order.  The first value entered under a name stays: entering another
one under the same name changes nothing.

Ordinal order compares names code point by code point, which is also the order
of their UTF-8 bytes.
-/

namespace ActivityCatalogue

/-! ## Entering a value in a list of entries -/

/-- The entries with `value` put in under `name`, unless the name is taken. -/
def enter {α : Type} (name : String) (value : α) : List (String × α) → List (String × α)
  | [] => [(name, value)]
  | (other, kept) :: rest =>
    if name < other then (name, value) :: (other, kept) :: rest
    else if name = other then (other, kept) :: rest
    else (other, kept) :: enter name value rest

/-- The names ascend strictly. -/
def Ascending {α : Type} (entries : List (String × α)) : Prop :=
  entries.Pairwise fun earlier later => earlier.1 < later.1

theorem fst_mem_of_mem_enter {α : Type} {name : String} {value : α}
    {entries : List (String × α)} {entry : String × α} (hentry : entry ∈ enter name value entries) :
    entry = (name, value) ∨ entry ∈ entries := by
  induction entries with
  | nil => simpa [enter] using hentry
  | cons head rest ih =>
    obtain ⟨other, kept⟩ := head
    unfold enter at hentry
    split at hentry
    · simpa using hentry
    · split at hentry
      · exact Or.inr hentry
      · rcases List.mem_cons.mp hentry with heq | hmem
        · exact Or.inr (heq ▸ List.mem_cons_self)
        · exact (ih hmem).imp id (List.mem_cons_of_mem _)

theorem ascending_enter {α : Type} (name : String) (value : α) {entries : List (String × α)}
    (hentries : Ascending entries) : Ascending (enter name value entries) := by
  induction entries with
  | nil => simp [enter, Ascending]
  | cons head rest ih =>
    obtain ⟨other, kept⟩ := head
    have hrest := List.pairwise_cons.mp hentries
    unfold enter
    split
    · next hlt =>
      refine List.pairwise_cons.mpr ⟨fun entry hentry => ?_, hentries⟩
      rcases List.mem_cons.mp hentry with heq | hmem
      · exact heq ▸ hlt
      · exact String.lt_trans hlt (hrest.1 entry hmem)
    · split
      · exact hentries
      · next hnot hne =>
        refine List.pairwise_cons.mpr ⟨fun entry hentry => ?_, ih hrest.2⟩
        rcases fst_mem_of_mem_enter hentry with heq | hmem
        · subst heq
          exact Decidable.byContradiction fun hcontra =>
            hne (String.le_antisymm (String.not_lt.mp hcontra) (String.not_lt.mp hnot))
        · exact hrest.1 entry hmem

/-! ## The map -/

/-- A map from names to values whose entries ascend strictly. -/
structure NameMap (α : Type) where
  entries : List (String × α)
  ascending : Ascending entries

namespace NameMap

variable {α : Type}

def empty : NameMap α := ⟨[], List.Pairwise.nil⟩

instance : Inhabited (NameMap α) := ⟨empty⟩

def names (map : NameMap α) : List String := map.entries.map Prod.fst

def values (map : NameMap α) : List α := map.entries.map Prod.snd

def size (map : NameMap α) : Nat := map.entries.length

def find? (map : NameMap α) (name : String) : Option α := map.entries.lookup name

def contains (map : NameMap α) (name : String) : Bool := (map.find? name).isSome

/-- The map with `value` under `name`, unless the name is taken. -/
def insertNew (map : NameMap α) (name : String) (value : α) : NameMap α :=
  ⟨enter name value map.entries, ascending_enter name value map.ascending⟩

/-- The map with every value changed by `change`, which sees the name too. -/
def mapValues {β : Type} (map : NameMap α) (change : String → α → β) : NameMap β where
  entries := map.entries.map fun entry => (entry.1, change entry.1 entry.2)
  ascending := by
    unfold Ascending
    rw [List.pairwise_map]
    exact map.ascending

end NameMap

/-! ## Sets of names -/

/-- A set of names, listed in ordinal order. -/
abbrev NameSet := NameMap Unit

namespace NameSet

def insert (set : NameSet) (name : String) : NameSet := set.insertNew name ()

/-- The names of a list, each once. -/
def ofList (names : List String) : NameSet := names.foldl insert NameMap.empty

end NameSet

end ActivityCatalogue
