import Mathlib.Data.List.Nodup
import Mathlib.Logic.Function.Basic

/-!
# Records that are written field by field

A record gives a value to each name.  A document is a list of keys and values: `write` puts the
fields that have a value into it, in their order, and the first element with a key is the one
that is found.  `read` goes through the fields in the same order and gives each name what its
field says, or fails.

Two fields may have one key, but not one name.
-/

namespace Athena.NamedFields

variable {α ν κ β γ : Type _}

/-- The document of the fields. -/
def write (key : α → κ) (value : α → Option γ) (fields : List α) : List (κ × γ) :=
  fields.filterMap fun f => (value f).map (key f, ·)

/-- The names of the fields, with what is read for each. -/
def read [DecidableEq ν] (name : α → ν) (value : α → β → Option β) (fields : List α)
    (members : ν → β) : Option (ν → β) :=
  fields.foldlM (fun members f =>
    (value f (members (name f))).map (Function.update members (name f))) members

/-- What the first field emits stands before what the others emit. -/
theorem filterMap_cons {σ : Type _} (emit : α → Option σ) (f : α) (fields : List α) :
    (f :: fields).filterMap emit = (emit f).toList ++ fields.filterMap emit := by
  rw [List.filterMap_cons]
  cases emit f <;> rfl

section Write

variable [DecidableEq κ] {key : α → κ} {value : α → Option γ}

omit [DecidableEq κ] in
/-- The element of the first field, if it has one, stands before the others. -/
theorem write_cons (f : α) (fields : List α) :
    write key value (f :: fields) =
      ((value f).map (key f, ·)).toList ++ write key value fields :=
  filterMap_cons _ f fields

/-- The first field with a key is found, if it is in the document. -/
theorem lookup_write_of_find {fields : List α} {k : κ} {f : α} {v : γ}
    (hfind : fields.find? (key · = k) = some f) (hvalue : value f = some v) :
    (write key value fields).lookup k = some v := by
  induction fields with
  | nil => exact nomatch hfind
  | cons g fields ih =>
    rw [write_cons, List.lookup_append]
    by_cases hkey : key g = k
    · have hself : decide (key g = k) = true := decide_eq_true hkey
      rw [List.find?_cons, hself] at hfind
      obtain rfl := Option.some.inj hfind
      rw [hvalue, Option.map_some, Option.toList_some, hkey, List.lookup_cons_self]
      rfl
    · -- an element with another key is passed over
      have hother : decide (key g = k) = false := decide_eq_false hkey
      have hne : (k == key g) = false := beq_eq_false_iff_ne.mpr (Ne.symm hkey)
      rw [List.find?_cons, hother] at hfind
      cases value g with
      | none => exact ih hfind
      | some w =>
        rw [Option.map_some, Option.toList_some, List.lookup_cons, hne]
        exact ih hfind

omit [DecidableEq κ] in
/-- Statements that are emitted field by field write a document, if the statement of each field
    writes the field, and fields are left out for which `kept` does not hold. -/
theorem write_of_emitted {σ : Type _} {emit : α → Option σ} {exec : σ → List (κ × γ)}
    {kept : α → Bool} {fields : List α}
    (h : ∀ f ∈ fields, (emit f).toList.flatMap exec =
      if kept f then ((value f).map (key f, ·)).toList else []) :
    (fields.filterMap emit).flatMap exec = write key value (fields.filter kept) := by
  induction fields with
  | nil => rfl
  | cons f fields ih =>
    have hself := h f List.mem_cons_self
    have hrest := ih fun g hg => h g (List.mem_cons_of_mem f hg)
    rw [filterMap_cons, List.flatMap_append, hself, hrest, List.filter_cons]
    split
    · rw [write_cons]
    · rfl

omit [DecidableEq κ] in
/-- The same of statements that may fail, if none of a field fails. -/
theorem write_of_executed {σ : Type _} {emit : α → Option σ} {exec : σ → Option (List (κ × γ))}
    {kept : α → Bool} {fields : List α}
    (h : ∀ f ∈ fields, ((emit f).toList.mapM exec).map List.flatten =
      some (if kept f then ((value f).map (key f, ·)).toList else [])) :
    ((fields.filterMap emit).mapM exec).map List.flatten =
      some (write key value (fields.filter kept)) := by
  induction fields with
  | nil => rfl
  | cons f fields ih =>
    obtain ⟨here, hhere, hself⟩ := Option.map_eq_some_iff.mp (h f List.mem_cons_self)
    obtain ⟨rest, hrest, hothers⟩ :=
      Option.map_eq_some_iff.mp (ih fun g hg => h g (List.mem_cons_of_mem f hg))
    have hall : ((f :: fields).filterMap emit).mapM exec = some (here ++ rest) := by
      rw [filterMap_cons, List.mapM_append, hhere, hrest]
      rfl
    rw [hall, Option.map_some, List.flatten_append, hself, hothers, List.filter_cons]
    split
    · rw [write_cons]
    · rfl

end Write

section Read

variable [DecidableEq ν] {name : α → ν} {value : α → β → Option β}

/-- The first field gives its name a value, and the others are read over it. -/
theorem read_cons {f : α} {fields : List α} {members members' : ν → β} :
    read name value (f :: fields) members = some members' ↔
      ∃ b, value f (members (name f)) = some b ∧
        read name value fields (Function.update members (name f) b) = some members' := by
  rw [read, List.foldlM_cons]
  cases value f (members (name f)) with
  | none => simp
  | some b =>
    rw [Option.map_some, Option.bind_eq_bind, Option.bind_some]
    exact ⟨fun h => ⟨b, rfl, h⟩, fun ⟨c, hc, h⟩ => by rw [← Option.some.inj hc] at h; exact h⟩

/-- Statements that are emitted field by field read the fields, if the statement of each field
    does. -/
theorem read_of_emitted {σ : Type _} {emit : α → Option σ}
    {exec : (ν → β) → σ → Option (ν → β)} {kept : α → Bool} {fields : List α}
    (h : ∀ f ∈ fields, ∀ members, (emit f).toList.foldlM exec members =
      if kept f then (value f (members (name f))).map (Function.update members (name f))
      else some members) (members : ν → β) :
    (fields.filterMap emit).foldlM exec members =
      read name value (fields.filter kept) members := by
  induction fields generalizing members with
  | nil => rfl
  | cons f fields ih =>
    have hself := h f List.mem_cons_self members
    have hrest := ih fun g hg => h g (List.mem_cons_of_mem f hg)
    rw [filterMap_cons, List.foldlM_append, hself, List.filter_cons]
    split
    · rw [read, List.foldlM_cons]
      exact bind_congr hrest
    · exact hrest members

/-- Other names keep their values. -/
theorem read_of_not_mem {fields : List α} {members members' : ν → β}
    (h : read name value fields members = some members') {n : ν} (hn : n ∉ fields.map name) :
    members' n = members n := by
  induction fields generalizing members with
  | nil => exact congrFun (Option.some.inj h).symm n
  | cons f fields ih =>
    obtain ⟨b, _, hrest⟩ := read_cons.mp h
    rw [List.map_cons, List.mem_cons, not_or] at hn
    rw [ih hrest hn.2, Function.update_of_ne hn.1]

/-- The name of each field gets what is read for the field. -/
theorem read_of_mem {fields : List α} (hnodup : (fields.map name).Nodup)
    {members members' : ν → β} (h : read name value fields members = some members') {f : α}
    (hf : f ∈ fields) : value f (members (name f)) = some (members' (name f)) := by
  induction fields generalizing members with
  | nil => exact nomatch hf
  | cons g fields ih =>
    obtain ⟨b, hb, hrest⟩ := read_cons.mp h
    rw [List.map_cons, List.nodup_cons] at hnodup
    obtain heq | hmem := List.mem_cons.mp hf
    · rw [heq, hb, read_of_not_mem hrest hnodup.1, Function.update_self]
    · have hne : name f ≠ name g :=
        fun hname => hnodup.1 (hname ▸ List.mem_map_of_mem hmem)
      have hread := ih hnodup.2 hrest hmem
      rw [Function.update_of_ne hne] at hread
      exact hread

/-- Reading does not fail if no field fails. -/
theorem exists_read {fields : List α} (hnodup : (fields.map name).Nodup) {members : ν → β}
    (h : ∀ f ∈ fields, ∃ b, value f (members (name f)) = some b) :
    ∃ members', read name value fields members = some members' := by
  induction fields generalizing members with
  | nil => exact ⟨members, rfl⟩
  | cons g fields ih =>
    obtain ⟨b, hb⟩ := h g List.mem_cons_self
    rw [List.map_cons, List.nodup_cons] at hnodup
    have hrest : ∀ f ∈ fields, ∃ c, value f (Function.update members (name g) b (name f)) =
        some c := by
      intro f hf
      have hne : name f ≠ name g := fun hname => hnodup.1 (hname ▸ List.mem_map_of_mem hf)
      rw [Function.update_of_ne hne]
      exact h f (List.mem_cons_of_mem g hf)
    obtain ⟨members', hread⟩ := ih hnodup.2 hrest
    exact ⟨members', read_cons.mpr ⟨b, hb, hread⟩⟩

/-- A name belongs to one field. -/
theorem find_name {fields : List α} (hnodup : (fields.map name).Nodup) {f : α}
    (hf : f ∈ fields) : fields.find? (name · = name f) = some f := by
  induction fields with
  | nil => exact nomatch hf
  | cons g fields ih =>
    rw [List.map_cons, List.nodup_cons] at hnodup
    obtain heq | hmem := List.mem_cons.mp hf
    · rw [heq]
      exact List.find?_cons_of_pos (decide_eq_true rfl)
    · have hne : name g ≠ name f := fun hname => hnodup.1 (hname ▸ List.mem_map_of_mem hmem)
      have hother : decide (name g = name f) = false := decide_eq_false hne
      rw [List.find?_cons, hother]
      exact ih hnodup.2 hmem

end Read

end Athena.NamedFields
