import Mathlib.Data.List.Basic
import Mathlib.Logic.Relation

/-!
# Records in a tree of values

A record is read from an object by the names of its fields. A field may be there once or not at
all; a name that is no field of the record is passed over, and the order does not matter. A choice
is read from an object with a tag, which says which record the rest of it is. So a reader gives the
same for an object and for any rearrangement of it (`Value.Rearranged`): its members in another
order, members of names that are no fields of it, and rearrangements inside its members. Which names
are fields, and of what, is its `Schema`.

A record is also read from an array of its fields, in order, of which the last ones may be missing.

Readers that have this are `Steadfast`. Those of single values are, those of records are if
those of their fields are (`readField_rearrange` is the step), and those of choices are if those of
their records are.
-/

namespace Semisweet.Foundations

universe u v

/-- A tree of values, with numbers `N`. -/
inductive Value (N : Type u) where
  /-- Nothing. -/
  | null
  /-- A truth value. -/
  | bool (value : Bool)
  /-- A number. -/
  | num (value : N)
  /-- A string. -/
  | str (value : String)
  /-- An array. -/
  | arr (values : List (Value N))
  /-- An object, its members in order. -/
  | obj (members : List (String × Value N))

variable {N : Type u} {α β : Type v}

/-- A reader of values, which may refuse one. -/
abbrev ValueReader (N : Type u) (α : Type v) := Value N → Option α

/-! ### Single values -/

/-- Reads a truth value. -/
def readBool : ValueReader N Bool
  | .bool value => some value
  | _ => none

/-- Reads a number that is one of the right kind. -/
def readNum (number : N → Option α) : ValueReader N α
  | .num value => number value
  | _ => none

/-- Reads a string. -/
def readStr : ValueReader N String
  | .str value => some value
  | _ => none

/-- Reads an array of strings. -/
def readStrs : ValueReader N (List String)
  | .arr values => values.mapM readStr
  | _ => none

/-- Reads a value that may be null. -/
def readOption (read : ValueReader N α) : ValueReader N (Option α)
  | .null => some none
  | value => (read value).map some

@[simp] theorem readStrs_map (values : List String) :
    readStrs (.arr (values.map .str) : Value N) = some values := by
  rw [readStrs, List.mapM_map]
  induction values with
  | nil => rfl
  | cons value values ih => simp [readStr, ih]

/-! ### Fields -/

/-- The values under a name. -/
def valuesUnder (members : List (String × Value N)) (name : String) : List (Value N) :=
  members.filterMap fun member => if member.1 = name then some member.2 else none

/-- Reads a field, which may be missing; twice the same field is refused. -/
def readField (members : List (String × Value N)) (name : String) (read : ValueReader N α) :
    Option (Option α) :=
  match valuesUnder members name with
  | [] => some none
  | [value] => (read value).map some
  | _ => none

/-- Reads a field that must be there. -/
def readRequired (members : List (String × Value N)) (name : String) (read : ValueReader N α) :
    Option α :=
  (readField members name read).bind id

/-- Reads a field that has a default. -/
def readDefault (members : List (String × Value N)) (name : String) (default : α)
    (read : ValueReader N α) : Option α :=
  (readField members name read).map fun found => found.getD default

/-- Reads the members of an object. -/
def readObject (read : List (String × Value N) → Option α) : ValueReader N α
  | .obj members => read members
  | _ => none

variable {members members' : List (String × Value N)} {name : String} {read : ValueReader N α}

@[simp] theorem valuesUnder_nil : valuesUnder ([] : List (String × Value N)) name = [] := rfl

@[simp] theorem valuesUnder_cons {other : String} {value : Value N} :
    valuesUnder ((other, value) :: members) name =
      if other = name then value :: valuesUnder members name else valuesUnder members name := by
  by_cases h : other = name <;> simp [valuesUnder, h]

@[simp] theorem valuesUnder_append :
    valuesUnder (members ++ members') name =
      valuesUnder members name ++ valuesUnder members' name :=
  List.filterMap_append

/-! ### Records and choices -/

/-- How a record is read. -/
structure RecordReader (N : Type u) (α : Type v) where
  /-- The names of its fields, in order. -/
  fields : List String
  /-- How many of them an array must have: the others have a default. -/
  required : ℕ
  /-- Reads the members of an object. -/
  read : List (String × Value N) → Option α

namespace RecordReader

variable (self : RecordReader N α)

/-- Reads an array of the fields. -/
def readArray (values : List (Value N)) : Option α :=
  if self.required ≤ values.length ∧ values.length ≤ self.fields.length then
    self.read (self.fields.zip values)
  else none

/-- Reads an object, or an array. -/
def readRecord : ValueReader N α
  | .obj members => self.read members
  | .arr values => self.readArray values
  | _ => none

end RecordReader

/-- Reads a choice: the record that the tag names, from an object that has the tag as a member, or
an array that has it in front. -/
def readTagged (tag : String) (variants : String → Option (RecordReader N α)) : ValueReader N α
  | .obj members =>
    (readRequired members tag readStr).bind fun kind =>
      (variants kind).bind fun variant => variant.read members
  | .arr (kind :: values) =>
    (readStr kind).bind fun kind =>
      (variants kind).bind fun variant => variant.readArray values
  | _ => none

/-! ### Rearrangements -/

/-- Which names are fields of a value, and what is under them. -/
inductive Schema where
  /-- No names: a single value. -/
  | single
  /-- The fields of a record. -/
  | record (fields : List (String × Schema))
  /-- A tag, and for each kind the fields of its record, all of them single values. -/
  | tagged (tag : String) (fields : String → List String)

namespace Schema

/-- A record of single values. -/
def flat (names : List String) : Schema := record (names.map fun name => (name, single))

/-- The names of the fields of an object. -/
def names (members : List (String × Value N)) : Schema → List String
  | single => []
  | record fields => fields.map Prod.fst
  | tagged tag fields => tag :: ((readRequired members tag readStr).map fields).getD []

/-- What is under a name. -/
def under (name : String) : Schema → Schema
  | record fields => (fields.lookup name).getD single
  | _ => single

variable {names : List String}

@[simp] theorem names_flat (members : List (String × Value N)) :
    (flat names).names members = names := by
  show (names.map fun name => (name, single)).map Prod.fst = names
  rw [List.map_map]
  exact List.map_id names

@[simp] theorem under_flat (name : String) : (flat names).under name = single := by
  show ((names.map fun name => (name, single)).lookup name).getD single = single
  induction names with
  | nil => rfl
  | cons other names ih =>
    rw [List.map_cons, List.lookup_cons]
    split
    · rfl
    · exact ih

end Schema

namespace Value

/-- One change to a value, anywhere in it. -/
inductive Rearrange : Schema → Value N → Value N → Prop
  /-- The members of an object change places. -/
  | order {schema : Schema} {members members' : List (String × Value N)} :
      members.Perm members' → Rearrange schema (.obj members) (.obj members')
  /-- It has a member of a name that is no field of it. -/
  | extra {schema : Schema} {members : List (String × Value N)} {name : String} {value : Value N} :
      name ∉ schema.names members →
        Rearrange schema (.obj members) (.obj ((name, value) :: members))
  /-- One of its members changes. -/
  | inside {schema : Schema} {before after : List (String × Value N)} {name : String}
      {value value' : Value N} :
      Rearrange (schema.under name) value value' →
        Rearrange schema (.obj (before ++ (name, value) :: after))
          (.obj (before ++ (name, value') :: after))

/-- Any changes, one after the other. -/
def Rearranged (schema : Schema) : Value N → Value N → Prop :=
  Relation.ReflTransGen (Rearrange schema)

end Value

/-- Rearranging a value does not change what is read. -/
def Steadfast (schema : Schema) (read : ValueReader N α) : Prop :=
  ∀ value value', Value.Rearrange schema value value' → read value = read value'

variable {schema : Schema}

theorem Steadfast.rearranged (hread : Steadfast schema read) {value value' : Value N}
    (hvalue : Value.Rearranged schema value value') : read value = read value' := by
  induction hvalue with
  | refl => rfl
  | tail _ hstep ih => exact ih.trans (hread _ _ hstep)

theorem steadfast_readBool : Steadfast schema (readBool : ValueReader N Bool) := by
  intro value value' h
  cases h <;> rfl

theorem steadfast_readNum (number : N → Option α) : Steadfast schema (readNum number) := by
  intro value value' h
  cases h <;> rfl

theorem steadfast_readStr : Steadfast schema (readStr : ValueReader N String) := by
  intro value value' h
  cases h <;> rfl

theorem steadfast_readStrs : Steadfast schema (readStrs : ValueReader N (List String)) := by
  intro value value' h
  cases h <;> rfl

theorem Steadfast.readOption (hread : Steadfast schema read) :
    Steadfast schema (readOption read) := by
  intro value value' h
  have heq := hread value value' h
  cases h <;> simpa [Foundations.readOption] using congrArg (Option.map some) heq

/-- **A field is read the same of a rearranged object.** -/
theorem readField_rearrange (h : Value.Rearrange schema (.obj members) (.obj members'))
    (name : String) (hread : Steadfast (schema.under name) read)
    (hname : name ∈ schema.names members) :
    readField members name read = readField members' name read := by
  unfold readField
  cases h with
  | order hperm =>
    have hvalues : (valuesUnder members name).Perm (valuesUnder members' name) :=
      hperm.filterMap _
    generalize valuesUnder members name = l at hvalues
    generalize valuesUnder members' name = l' at hvalues
    match l, hvalues with
    | [], hvalues => rw [hvalues.nil_eq]
    | [value], hvalues => rw [List.singleton_perm.mp hvalues]
    | a :: b :: l, hvalues =>
      have hlen := hvalues.length_eq
      match l' with
      | [] | [_] => simp at hlen
      | _ :: _ :: _ => rfl
  | @extra _ _ other value hother =>
    have hne : other ≠ name := fun heq => hother (heq ▸ hname)
    simp [hne]
  | @inside _ before after other value value' hvalue =>
    simp only [valuesUnder_append, valuesUnder_cons]
    by_cases hother : other = name
    · -- the field that changed
      subst hother
      have heq := hread value value' hvalue
      simp only [if_true]
      match valuesUnder before other, valuesUnder after other with
      | [], [] => simp [heq]
      | [], _ :: _ => rfl
      | _ :: before, _ => cases before <;> rfl
    · simp [hother]

theorem readRequired_rearrange (h : Value.Rearrange schema (.obj members) (.obj members'))
    (name : String) (hread : Steadfast (schema.under name) read)
    (hname : name ∈ schema.names members) :
    readRequired members name read = readRequired members' name read := by
  rw [readRequired, readRequired, readField_rearrange h name hread hname]

theorem readDefault_rearrange (h : Value.Rearrange schema (.obj members) (.obj members'))
    (name : String) {default : α} (hread : Steadfast (schema.under name) read)
    (hname : name ∈ schema.names members) :
    readDefault members name default read = readDefault members' name default read := by
  rw [readDefault, readDefault, readField_rearrange h name hread hname]

/-- Its members are read the same when they are rearranged. -/
def RecordReader.Steady (schema : Schema) (reader : RecordReader N α) : Prop :=
  ∀ members members', Value.Rearrange schema (.obj members) (.obj members') →
    reader.read members = reader.read members'

/-- **A record is read the same of a rearranged object**, if its fields are. -/
theorem RecordReader.Steady.steadfast {reader : RecordReader N α} (hread : reader.Steady schema) :
    Steadfast schema reader.readRecord := by
  intro value value' h
  cases h with
  | order hperm => exact hread _ _ (.order hperm)
  | extra hname => exact hread _ _ (.extra hname)
  | inside hvalue => exact hread _ _ (.inside hvalue)

/-- A rearranged object of a kind is one of the record of that kind. -/
theorem Value.Rearrange.of_kind {tag kind : String} {fields : String → List String}
    (hkind : readRequired members tag readStr = some kind)
    (h : Value.Rearrange (.tagged tag fields) (.obj members) (.obj members')) :
    Value.Rearrange (.flat (tag :: fields kind)) (.obj members) (.obj members') := by
  cases h with
  | order hperm => exact .order hperm
  | extra hname =>
    refine .extra ?_
    rw [Schema.names_flat]
    simpa only [Schema.names, hkind, Option.map_some, Option.getD_some] using hname
  | @inside _ before after name value value' hvalue =>
    refine .inside ?_
    rwa [Schema.under_flat]

/-- **A choice is read the same of a rearranged object**, if its records are. -/
theorem steadfast_readTagged {tag : String} {variants : String → Option (RecordReader N α)}
    {fields : String → List String}
    (hvariants : ∀ kind variant, variants kind = some variant →
      variant.Steady (.flat (tag :: fields kind))) :
    Steadfast (.tagged tag fields) (readTagged tag variants) := by
  have hobject : ∀ members members',
      Value.Rearrange (.tagged tag fields) (.obj members) (.obj members') →
        readTagged tag variants (.obj members) = readTagged tag variants (.obj members') := by
    intro members members' h
    have htag := readRequired_rearrange h tag steadfast_readStr (by simp [Schema.names])
    simp only [readTagged, ← htag]
    cases hkind : readRequired members tag readStr with
    | none => rfl
    | some kind =>
      cases hvariant : variants kind with
      | none => simp [hvariant]
      | some variant =>
        simpa [hvariant] using hvariants kind variant hvariant _ _ (h.of_kind hkind)
  intro value value' h
  cases h with
  | order hperm => exact hobject _ _ (.order hperm)
  | extra hname => exact hobject _ _ (.extra hname)
  | inside hvalue => exact hobject _ _ (.inside hvalue)

end Semisweet.Foundations
